import CobolDialects.Engine.Access
import CobolDialects.Engine.Closing
import CobolDialects.Engine.Opening

/-!
# Statements

A statement is understood in the light of what its connection knows of the declaration, and only
then is the database read. If the declaration has changed meanwhile, the statement is understood
once more. A statement that cannot be understood because something is missing makes the connection
look whether it is there now; one that fails for another reason does not.
-/

namespace CobolDialects

namespace Database.Error

/-- Whether an error says that something is missing in the declaration. -/
def isLack : Error → Bool
  | .noTable | .stampUnreadable _ | .stampUnwritable => true
  | _ => false

/-- The error as it is told when a statement is understood once more. -/
def retold : Error → Error
  | .stampUnreadable _ => .stampUnreadable false
  | e => e

end Database.Error

namespace Engine

open Database

/-- What a statement asks of a declaration. -/
abbrev Check := Option Shape → Except Error Unit

/-- Keeps in mind how the settings relation is declared. -/
def learn (slot : Nat) (d : Declaration) : Attempt Unit :=
  modify fun e => e.update slot fun c => if c.sharing then c else { c with known := some d }

/-- What a connection knows of the declaration. The first time it reads it. -/
def declaration (slot : Nat) : Attempt Declaration := do
  match (← Attempt.connection slot).known with
  | some d => return d
  | none =>
    let db ← view slot
    learn slot db.declaration
    return db.declaration

/-- Understands a statement once more if the declaration has changed, for one that failed with an
error. -/
def recheck (slot : Nat) (known : Declaration) (check : Check) (error : Error) : Attempt Unit := do
  match ← Attempt.observe (view slot) with
  | .error _ => throw error
  | .ok db =>
    if db.version = known.version then throw error
    learn slot db.declaration
    MonadExcept.ofExcept (check db.shape?)

/-- Reads the database for a statement that is understood if the declaration is still the known
one. -/
def viewChecked (slot : Nat) (known : Declaration) (check : Check) : Attempt Database := do
  let db ← view slot
  if db.version = known.version then return db
  learn slot db.declaration
  match check db.shape? with
  | .ok () => return db
  | .error error => throw error.retold

/-- The database for a statement, which asks something of the declaration and may be about to
write. -/
def prepare (slot : Nat) (writing : Bool) (check : Check) : Attempt Database := do
  let known ← declaration slot
  match check known.shape with
  | .ok () =>
    if writing then requireWritable slot
    viewChecked slot known check
  | .error error =>
    if ¬ error.isLack then throw error
    recheck slot known check error
    if writing then requireWritable slot
    view slot

/-- Carries out a statement that reads. -/
def query {α : Type} (slot : Nat) (check : Check) (read : Database → Except Error α) :
    Attempt α := do
  let db ← prepare slot false check
  MonadExcept.ofExcept (read db)

/-- Carries out a statement that writes. -/
def execute (slot : Nat) (check : Check) (write : Database → Except Error Database) :
    Attempt Unit := do
  let db ← prepare slot true check
  let changed ← MonadExcept.ofExcept (write db)
  commit slot db changed

/-! ## The store's database -/

/-- Makes the database of a connection one with a log, if the connection can use one. -/
def keepLog (slot : Nat) : Attempt Unit := do
  let db ← view slot
  let c ← Attempt.connection slot
  if c.supportsLog ∧ c.log.isNone then commit slot db { db with logged := true }

/-- Declares the store's table, unless there is a relation of its name. -/
def declareTable (slot : Nat) : Attempt Unit := do
  let db ← view slot
  if db.relation.isNone then commit slot db db.declare
  learn slot db.declare.declaration

/-- Makes the database of a connection one for a store. -/
def adopt (slot : Nat) : Attempt Unit := do
  keepLog slot
  declareTable slot

/-- Connects to the database of a name and does something; a connection for which that fails is
closed again. -/
def connectAnd {α : Type} (name : Path) (act : Nat → Attempt α) : Attempt (Nat × α) := do
  let slot ← connect name
  match ← Attempt.observe (act slot) with
  | .ok a => return (slot, a)
  | .error error =>
    modify (·.close slot)
    throw error

/-- Does something with the database of a name, on a connection of its own. -/
def visit {α : Type} (name : Path) (act : Nat → Attempt α) : Attempt α := do
  let (slot, a) ← connectAnd name act
  modify (·.close slot)
  return a

end Engine

end CobolDialects
