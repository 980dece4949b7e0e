import CobolDialects.Path
import CobolDialects.Text.Quoted

/-!
# Events

What the library reports while it works. An event is told by what happened; its level, the part of
the program it comes from and its wording are functions of it.
-/

namespace CobolDialects

/-- How urgent an event is. -/
inductive Level where
  | error | warn | info | debug | trace
deriving DecidableEq, Repr

namespace Level

def name : Level → String
  | .error => "ERROR"
  | .warn => "WARN"
  | .info => "INFO"
  | .debug => "DEBUG"
  | .trace => "TRACE"

/-- More urgent levels have smaller numbers. -/
def rank : Level → Nat
  | .error => 1
  | .warn => 2
  | .info => 3
  | .debug => 4
  | .trace => 5

end Level

inductive Event where
  /-- The key of a catalog has no value. -/
  | notSet (key : String)
  /-- A descriptor is about to be stored, `replacing` others of its name or not. -/
  | registering (replacing : Bool) (name owner : String)
  | storedInMemory (key : String)
  | fileMissing (path : Path)
  | fileWritten (key : String) (path : Path)
  | databaseOpening (path : Path)
  | databaseReady
  | rowStored (key : String) (size : Nat)
  | usingFile (path : Path)
deriving DecidableEq, Repr

namespace Event

def level : Event → Level
  | .registering _ _ _ | .fileWritten _ _ | .databaseOpening _ => .info
  | .notSet _ | .storedInMemory _ | .fileMissing _ | .databaseReady | .rowStored _ _
  | .usingFile _ => .debug

/-- The part of the program that reports an event. -/
def target : Event → String
  | .notSet _ | .registering _ _ _ => "dialect_registry::catalog::dialects"
  | .storedInMemory _ => "dialect_registry::store::memory"
  | .fileMissing _ | .fileWritten _ _ => "dialect_registry::store::json_file"
  | .databaseOpening _ | .databaseReady | .rowStored _ _ => "dialect_registry::store::sqlite"
  | .usingFile _ => "dialect_registry"

def message : Event → String
  | .notSet key => s!"{key} is not set"
  | .registering true name owner => s!"Replacing dialect {name} from {owner}"
  | .registering false name owner => s!"Registering dialect {name} from {owner}"
  | .storedInMemory key => s!"Setting {key} in memory store"
  | .fileMissing path => s!"Settings file {Quoted.path path} does not exist yet"
  | .fileWritten key path => s!"Wrote {key} to {Quoted.path path}"
  | .databaseOpening path => s!"Opening settings database at {Quoted.path path}"
  | .databaseReady => "Settings schema ready"
  | .rowStored key size => s!"Stored {key} ({size} bytes)"
  | .usingFile path => s!"Using JSON settings at {Quoted.path path}"

end Event

end CobolDialects
