import CobolDialects.Engine.Statement
import CobolDialects.Json.Printer
import CobolDialects.Settings.Store

/-!
# Settings in a database

Each value is stored as its compact text in a row of its own, beside the time at which it was
written. A store that is open has a connection of its own to its database.
-/

namespace CobolDialects.Settings.DatabaseFile

/-- The outcome of an attempt, as a store tells it. -/
def ofAttempt {α : Type} (a : Attempt α) (e : Engine) : Outcome Engine α :=
  match a.on e with
  | (.ok x, after) => ⟨.ok x, after, []⟩
  | (.error error, after) => ⟨.error (.database error), after, []⟩

/-- The outcome with an event that is reported if all went well. -/
def reporting {α : Type} (event : Event) (o : Outcome Engine α) : Outcome Engine α :=
  match o.result with
  | .ok _ => { o with events := o.events ++ [event] }
  | .error _ => o

/-! ## Opening -/

/-- Opens the store in the database of a name: gives the connection to work on, with the store's
table declared. -/
def connect (name : Path) (e : Engine) : Outcome Engine Nat :=
  reporting .databaseReady ((ofAttempt (Engine.connectAnd name Engine.adopt) e).map (·.1))

/-- Opens the store at a path, making the directories above it. -/
def openPath (path : Path) (e : Engine) : Outcome Engine Nat :=
  let opened : Outcome Engine Nat :=
    match e.files.makeDirectories (path.directory?.getD []) with
    | (.error fault, made) => ⟨.error (.io fault), e.setFiles made, []⟩
    | (.ok (), made) => connect path (e.setFiles made)
  opened.after [.databaseOpening path]

/-- Opens a store that no path leads to. -/
def openInMemory (e : Engine) : Outcome Engine Nat := connect Database.Address.memoryPath e

/-! ## The store -/

/-- The value of a stored text. -/
def decode : Option String → Except Error (Option Json)
  | none => .ok none
  | some text =>
    match Json.read text with
    | .ok v => .ok (some v)
    | .error e => .error (.json e)

def get (slot : Nat) (key : String) (e : Engine) : Outcome Engine (Option Json) :=
  (ofAttempt (Engine.query slot Database.checkValue (·.value? key)) e).andThen
    fun text? after => .same after (decode text?)

/-- When a key was last written. -/
def updatedAt (slot : Nat) (key : String) (e : Engine) : Outcome Engine (Option Int) :=
  ofAttempt (Engine.query slot Database.checkStamp (·.updatedAt? key)) e

/-- Stores a value as written at a time. -/
def set (time : Int) (slot : Nat) (key : String) (value : Json) (e : Engine) :
    Outcome Engine Unit :=
  let text := value.toText
  reporting (.rowStored key text.utf8ByteSize)
    (ofAttempt (Engine.execute slot Database.checkUpsert (·.upsert key text time)) e)

/-- The store on a connection, at a given time. -/
def store (time : Int) (slot : Nat) : Store Engine where
  get := get slot
  set := set time slot

end CobolDialects.Settings.DatabaseFile
