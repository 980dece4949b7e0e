import CobolDialects.Locations
import CobolDialects.Settings.Store

/-!
# The catalog of dialects

The catalog is the list of descriptors stored under one settings key. It keeps no state: every
operation is an action on a store. Registering reads the list, drops every entry of the new
descriptor's name and puts the new descriptor last.
-/

namespace CobolDialects.Catalog

open Settings

/-- The list that a stored value stands for. -/
def decode (key : String) : Json → Except Error (List Descriptor)
  | .arr items =>
    match Descriptor.ofJsonList items with
    | .ok ds => .ok ds
    | .error e => .error (.invalidShape key (.element e))
  | v => .error (.invalidShape key (.notArray v.kind))

/-- The value that stands for a list. -/
def encode (ds : List Descriptor) : Json := .arr (ds.map Descriptor.toJson)

/-- The list with a descriptor registered: last, and the only one of its name. -/
def upsert (ds : List Descriptor) (d : Descriptor) : List Descriptor :=
  ds.filter (·.name ≠ d.name) ++ [d]

/-- The event of registering a descriptor in a list. -/
def registration (ds : List Descriptor) (d : Descriptor) : Event :=
  .registering (ds.any (·.name = d.name)) d.name d.owner

/-- The registered dialects in stored order. A key without a value has none. -/
def list (key : String) : Action (List Descriptor) :=
  .get key fun
    | .error e => .done (.error e)
    | .ok none => .emit (.notSet key) (.done (.ok []))
    | .ok (some v) => .done (decode key v)

/-- Registers a descriptor. -/
def register (key : String) (d : Descriptor) : Action Unit :=
  (list key).bind fun ds =>
    .emit (registration ds d) (.set key (encode (upsert ds d)) .done)

/-- The first descriptor of a name. -/
def find (key : String) (name : String) : Action (Option Descriptor) :=
  (list key).map fun ds => ds.find? (·.name = name)

/-- The grammar path of every descriptor in stored order. -/
def paths (key : String) : Action (List String) := (list key).map fun ds => ds.map (·.path)

end CobolDialects.Catalog
