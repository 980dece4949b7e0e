import CobolDialects.Database.Address
import CobolDialects.Json.Binary64

/-!
# Settings databases

A database holds at most one relation of interest, named `settings`. The store declares it with a
key, but another program may have left it in another shape, or removed it, and may have put anything
into its rows. Every statement is a function on the database that either gives the new database or
fails and leaves the old one. Each change of a declaration gives the database a new version, by
which connections notice it.
-/

namespace CobolDialects

/-- What a column of a row holds. -/
inductive Cell where
  | null
  | integer (n : Int)
  | real (x : Binary64)
  | text (bytes : Bytes)
  | blob (bytes : Bytes)
deriving DecidableEq, Repr

/-- The name of a cell's storage class. -/
def Cell.className : Cell → String
  | .null => "Null"
  | .integer _ => "Integer"
  | .real _ => "Real"
  | .text _ => "Text"
  | .blob _ => "Blob"

/-- A row of the settings relation. Where there is no column for the time of the last write, its
cell is null. -/
structure Row where
  key : String
  value : Cell
  updatedAt : Cell
deriving DecidableEq, Repr

/-- How the settings relation is declared. -/
inductive Shape where
  /-- A table with a key, as the store declares it. -/
  | keyed
  /-- A table with a key but without the time of the last write. -/
  | unstamped
  /-- A table with all columns but without a key. -/
  | unkeyed
  | view
deriving DecidableEq, Repr

/-- Whether there is a column for the time of the last write. -/
def Shape.stamped : Shape → Bool
  | .unstamped => false
  | _ => true

/-- The names of the columns. -/
def Shape.columns (s : Shape) : List String :=
  if s.stamped then ["key", "value", "updated_at"] else ["key", "value"]

structure Relation where
  shape : Shape
  rows : List Row
deriving DecidableEq, Repr

structure Database where
  relation : Option Relation
  /-- How often a declaration has changed. -/
  version : Nat
  /-- Whether the database asks that changes go to a log beside it. -/
  logged : Bool
deriving DecidableEq, Repr

namespace Database

/-- A database without any relation. -/
def empty : Database := ⟨none, 0, false⟩

/-- How the settings relation is declared, if it is. -/
def shape? (db : Database) : Option Shape := db.relation.map (·.shape)

inductive Column where
  | value | updatedAt
deriving DecidableEq, Repr

def Column.name : Column → String
  | .value => "value"
  | .updatedAt => "updated_at"

/-- Why the files of a database cannot be used. -/
inductive Obstacle where
  | unreachable
  /-- Nothing can be written; the code says why. -/
  | readOnly (code : Nat)
  | locked
  | malformed
  | notADatabase
  /-- A call to the system failed; the code says which. -/
  | io (code : Nat)
deriving DecidableEq, Repr

namespace Obstacle

/-- The code of a connection that can only read. -/
def readOnlyCode : Nat := 8

/-- The code of a rollback that only a writer could do. -/
def rollbackCode : Nat := 776

/-- The code of a file that is no longer where it was opened. -/
def movedCode : Nat := 1032

/-- The code of a call that fails while a database is being opened. -/
def ioCode : Nat := 10

def readCode : Nat := 266

def shortReadCode : Nat := 522

def statCode : Nat := 1802

def removeCode : Nat := 2570

def message : Obstacle → String
  | .unreachable => "unable to open database file"
  | .readOnly _ => "attempt to write a readonly database"
  | .locked => "database is locked"
  | .malformed => "database disk image is malformed"
  | .notADatabase => "file is not a database"
  | .io _ => "disk I/O error"

def code : Obstacle → Nat
  | .unreachable => 14
  | .readOnly code => code
  | .locked => 5
  | .malformed => 11
  | .notADatabase => 26
  | .io code => code

/-- The engine's own account. -/
def account (o : Obstacle) : String := s!"Error code {o.code}: {o.message}"

end Obstacle

/-- Why a database cannot be opened, or a statement not be carried out. -/
inductive Error where
  | address (error : Address.Error)
  | nulInPath (index : Nat)
  | cannotOpen (path : Path)
  | obstacle (o : Obstacle)
  | noTable
  /-- There is no column for the time of the last write; `located` if the error tells where the
  statement names it. -/
  | stampUnreadable (located : Bool)
  | stampUnwritable
  | noKey
  | isView
  | wrongClass (found : Cell) (column : Column)
  | notText (error : Utf8.Error)
deriving DecidableEq, Repr

def Error.message : Error → String
  | .address error => error.message
  | .nulInPath index => s!"nul byte found in provided data at position: {index}"
  | .cannotOpen path => s!"{Obstacle.unreachable.message}: {shownText path}"
  | .obstacle o => o.message
  | .noTable => "no such table: settings"
  | .stampUnreadable located =>
    "no such column: updated_at" ++
      (if located then " in SELECT updated_at FROM settings WHERE key = ?1 at offset 7" else "")
  | .stampUnwritable => "table settings has no column named updated_at"
  | .noKey => "ON CONFLICT clause does not match any PRIMARY KEY or UNIQUE constraint"
  | .isView => "cannot modify settings because it is a view"
  | .wrongClass found column =>
    s!"Invalid column type {found.className} at index: 0, name: {column.name}"
  | .notText error => s!"Conversion error from type Text at index: 0, {error.message}"

/-- What the engine says of a statement that it does not understand. -/
def statementAccount : String := "Error code 1: SQL logic error"

/-- What lies behind an error: the engine's account, or the fault of the text. -/
def Error.cause? : Error → Option String
  | .address (.modeNotAllowed _) => some "Error code 3: access permission denied"
  | .cannotOpen _ => some Obstacle.unreachable.account
  | .obstacle o => some o.account
  | .address _ | .noTable | .stampUnreadable _ | .stampUnwritable | .noKey | .isView =>
    some statementAccount
  | .notText error => some error.message
  | .nulInPath index => some s!"nul byte found in provided data at position: {index}"
  | .wrongClass _ _ => none

/-- The row that a look-up of a key finds: the first one. -/
def row? (rows : List Row) (key : String) : Option Row := rows.find? (·.key = key)

/-- The text of a cell. -/
def Cell.asText : Cell → Except Error String
  | .text bytes =>
    match Utf8.decode bytes with
    | .ok s => .ok (String.ofList s)
    | .error e => .error (.notText e)
  | cell => .error (.wrongClass cell .value)

/-- The integer in a cell. -/
def Cell.asInteger : Cell → Except Error Int
  | .integer n => .ok n
  | cell => .error (.wrongClass cell .updatedAt)

/-- Applies a reading to a row if there is one. -/
def decodeRow {α : Type} (read : Row → Except Error α) : Option Row → Except Error (Option α)
  | none => .ok none
  | some row => (read row).map some

/-! ## What a statement asks of the declaration -/

/-- Whether the value of a key can be asked for. -/
def checkValue : Option Shape → Except Error Unit
  | none => .error .noTable
  | some _ => .ok ()

/-- Whether the time at which a key was written can be asked for. -/
def checkStamp : Option Shape → Except Error Unit
  | none => .error .noTable
  | some shape => if shape.stamped then .ok () else .error (.stampUnreadable true)

/-- Whether a row can be stored in place of the one that has its key. -/
def checkUpsert : Option Shape → Except Error Unit
  | none => .error .noTable
  | some .keyed => .ok ()
  | some .unstamped => .error .stampUnwritable
  | some .unkeyed => .error .noKey
  | some .view => .error .isView

/-! ## Statements -/

def rows (db : Database) : List Row := (db.relation.map (·.rows)).getD []

/-- The text stored under a key. -/
def value? (db : Database) (key : String) : Except Error (Option String) :=
  match checkValue db.shape? with
  | .error e => .error e
  | .ok () => decodeRow (fun row => Cell.asText row.value) (row? db.rows key)

/-- When a key was last written. -/
def updatedAt? (db : Database) (key : String) : Except Error (Option Int) :=
  match checkStamp db.shape? with
  | .error e => .error e
  | .ok () => decodeRow (fun row => Cell.asInteger row.updatedAt) (row? db.rows key)

/-- Replaces the row of a key where it stands, or adds one at the end. -/
def upsertRow (row : Row) : List Row → List Row
  | [] => [row]
  | r :: rest => if r.key = row.key then row :: rest else r :: upsertRow row rest

/-- The database with other rows. -/
def setRows (db : Database) (rows : List Row) : Database :=
  { db with relation := db.relation.map fun r => { r with rows } }

/-- Stores a text under a key, as written at a time. -/
def upsert (db : Database) (key value : String) (time : Int) : Except Error Database :=
  match checkUpsert db.shape? with
  | .error e => .error e
  | .ok () =>
    .ok (db.setRows (upsertRow ⟨key, .text (bytesOf value), .integer time⟩ db.rows))

/-- The database with another declaration, or none, of the settings relation. -/
def redeclare (db : Database) (relation : Option Relation) : Database :=
  { db with relation, version := db.version + 1 }

/-- Declares the store's table if there is no relation of its name. -/
def declare (db : Database) : Database :=
  match db.relation with
  | none => db.redeclare (some ⟨.keyed, []⟩)
  | some _ => db

end Database

end CobolDialects
