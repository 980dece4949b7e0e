import CobolDialects.Json.Binary64
import CobolDialects.Text.Order

/-!
# JSON values

A value keeps the members of an object as a list, so that one type serves both a document as it
was written and the value it stands for. The value of a document has its members in the order of
their names, each name once and the last one written winning. Settings are the exception at the
outermost level: there a member keeps the position at which its name first occurred.
-/

namespace CobolDialects

/-- An integer that 64 bits hold: signed below zero, unsigned from zero on. -/
structure Integer where
  value : Int
  lower : -9223372036854775808 ≤ value
  upper : value < 18446744073709551616
deriving DecidableEq

def Integer.ofInt? (n : Int) : Option Integer :=
  if h : -9223372036854775808 ≤ n ∧ n < 18446744073709551616 then some ⟨n, h.1, h.2⟩ else none

inductive Number where
  | int (n : Integer)
  | float (x : Binary64)
deriving DecidableEq

inductive Json where
  | null
  | bool (b : Bool)
  | num (n : Number)
  | str (s : String)
  | arr (items : List Json)
  | obj (members : List (String × Json))
deriving Inhabited

/-- Named values in order. -/
abbrev Members := List (String × Json)

namespace Members

/-- The value of a name. -/
def find? (name : String) : Members → Option Json
  | [] => none
  | (n, v) :: rest => if n = name then some v else find? name rest

/-- Replaces the value of a name where it stands, or adds the name at the end. -/
def upsert (name : String) (value : Json) : Members → Members
  | [] => [(name, value)]
  | (n, v) :: rest => if n = name then (n, value) :: rest else (n, v) :: upsert name value rest

/-- Each name once, where it first occurred, with its last value. -/
def ordered (ms : Members) : Members := ms.foldl (fun done m => done.upsert m.1 m.2) []

/-- Puts a name at its place in the order of names, replacing the value it had. -/
def insert (name : String) (value : Json) : Members → Members
  | [] => [(name, value)]
  | (n, v) :: rest =>
    if textBefore name n then (name, value) :: (n, v) :: rest
    else if n = name then (n, value) :: rest
    else (n, v) :: insert name value rest

/-- Each name once, in the order of names, with its last value. -/
def sorted (ms : Members) : Members := ms.foldl (fun done m => done.insert m.1 m.2) []

end Members

namespace Json

/-- The name of a value's type. -/
inductive Kind where
  | null | boolean | number | string | array | object
deriving DecidableEq, Repr

def Kind.name : Kind → String
  | .null => "null"
  | .boolean => "boolean"
  | .number => "number"
  | .string => "string"
  | .array => "array"
  | .object => "object"

def kind : Json → Kind
  | .null => .null
  | .bool _ => .boolean
  | .num _ => .number
  | .str _ => .string
  | .arr _ => .array
  | .obj _ => .object

mutual

/-- The value that a document stands for. -/
def canonical : Json → Json
  | .arr items => .arr (canonicalItems items)
  | .obj members => .obj (canonicalMembers members).sorted
  | v => v

def canonicalItems : List Json → List Json
  | [] => []
  | v :: rest => v.canonical :: canonicalItems rest

/-- Every value canonical, names and order as written. -/
def canonicalMembers : Members → Members
  | [] => []
  | (name, v) :: rest => (name, v.canonical) :: canonicalMembers rest

end

mutual

/-- How many arrays and objects are nested in one another. -/
def depth : Json → Nat
  | .arr items => depthItems items + 1
  | .obj members => depthMembers members + 1
  | _ => 0

def depthItems : List Json → Nat
  | [] => 0
  | v :: rest => max v.depth (depthItems rest)

def depthMembers : Members → Nat
  | [] => 0
  | (_, v) :: rest => max v.depth (depthMembers rest)

end

end Json

end CobolDialects
