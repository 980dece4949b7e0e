import CobolDialects.FileSystem.Change

/-!
# Engines and connections

An engine carries out statements on databases through connections. A connection holds on to the
file of its database and not to the path at which it was opened. Beside that file there may be
others: the journal of a change that was broken off, the log of the changes that are still to be
brought to the file, and an index of the log, which the connections to the database share.
Connections may belong to several processes.
-/

namespace CobolDialects

/-- How changes of a database are secured. -/
inductive Journal where
  | rollback | log | memory
deriving DecidableEq, Repr

def Journal.name : Journal → String
  | .rollback => "delete"
  | .log => "wal"
  | .memory => "memory"

/-- What a connection has learnt of how the settings relation is declared. -/
structure Declaration where
  version : Nat
  shape : Option Shape
deriving DecidableEq, Repr

def Database.declaration (db : Database) : Declaration := ⟨db.version, db.shape?⟩

/-- How a connection takes part in a log. -/
structure LogUse where
  /-- The file of the log. -/
  log : Nat
  /-- The file of its index, which may be in memory. -/
  index : Nat
  /-- Where the index lies beside a database, if it does. -/
  place : Option Location
  writable : Bool
deriving DecidableEq, Repr

/-- A connection to a database. -/
structure Connection where
  /-- The process that opened the connection. -/
  process : Nat
  /-- The file of the database. -/
  file : Nat
  /-- Where that file was found, unless the database is in memory. -/
  location : Option Location
  system : Database.System
  readOnly : Bool
  /-- Whether the connection relies on it that nobody changes the database. -/
  immutable : Bool
  /-- Whether the connection does without locks. -/
  lockless : Bool
  /-- Whether the connection leaves the index of a log as it is. -/
  indexReadOnly : Bool
  /-- Whether the declaration is shared with other connections, and so always known as it is. -/
  sharing : Bool
  log : Option LogUse
  /-- What was last learnt of the declaration. -/
  known : Option Declaration
  /-- The database as it was last read, if it has not changed since. -/
  cached : Option Database
deriving DecidableEq, Repr

/-- Whether the connection locks the file of its database. -/
def Connection.locksFile (c : Connection) : Bool :=
  !c.lockless && (c.system = .standard || c.system = .exclusive)

/-- Whether the connection can use a log. -/
def Connection.supportsLog (c : Connection) : Bool :=
  c.location.isSome && !c.immutable && c.locksFile

/-- A database in memory that other connections of the same process find by its name. -/
structure NamedDatabase where
  process : Nat
  name : Bytes
  file : Nat
deriving DecidableEq, Repr

structure Engine where
  files : FileSystem
  /-- All connections so far; those that are closed are gone. -/
  connections : List (Option Connection)
  named : List NamedDatabase
  /-- The process for which the engine works at present. -/
  process : Nat
deriving DecidableEq, Repr

/-- The database that a file has been written with. -/
def Content.database? : Content → Option Database
  | .database db => some db
  | _ => none

/-- The database that a file holds. A file of at most one byte is an empty one. -/
def Content.asDatabase : Content → Except Database.Error Database
  | .database db => .ok db
  | .bytes b => if b.length ≤ 1 then .ok .empty else .error (.obstacle .notADatabase)
  | .log _ | .logIndex _ => .error (.obstacle .notADatabase)

namespace Engine

/-- An engine without connections. -/
def onFiles (files : FileSystem) : Engine := ⟨files, [], [], 0⟩

def setFiles (e : Engine) (fs : FileSystem) : Engine := { e with files := fs }

def connection? (e : Engine) (slot : Nat) : Option Connection := e.connections.getD slot none

/-- The connections that are open. -/
def openConnections (e : Engine) : List Connection := e.connections.filterMap id

/-- Changes a connection. -/
def update (e : Engine) (slot : Nat) (f : Connection → Connection) : Engine :=
  { e with connections := e.connections.modify slot (Option.map f) }

/-- Adds a connection, in the next slot. -/
def addConnection (e : Engine) (c : Connection) : Engine :=
  { e with connections := e.connections ++ [some c] }

/-- What a file holds. -/
def content (e : Engine) (n : Nat) : Content := ((e.files.node? n).map (·.content)).getD (.bytes [])

def setContent (e : Engine) (n : Nat) (content : Content) : Engine :=
  e.setFiles (e.files.setContent n content)

/-- How many changes of a log its index leads to. -/
def reach (e : Engine) (index : Nat) : Nat :=
  match e.content index with
  | .logIndex reach => reach
  | _ => 0

/-- Sets how far an index reaches. All connections that use it read their database again. -/
def setReach (e : Engine) (index reach : Nat) : Engine :=
  { e.setContent index (.logIndex reach) with
    connections := e.connections.map fun c => c.map fun c =>
      if c.log.any (·.index = index) then { c with cached := none } else c }

end Engine

/-! ## Attempts -/

/-- What is done with an engine. It may fail, and leaves behind what it has done so far. -/
abbrev Attempt (α : Type) := ExceptT Database.Error (StateM Engine) α

namespace Attempt

/-- What an attempt gives, and the engine behind it. -/
def on {α : Type} (a : Attempt α) (e : Engine) : Except Database.Error α × Engine := a.run.run e

def refuse {α : Type} (o : Database.Obstacle) : Attempt α := throw (.obstacle o)

/-- What comes of an attempt, be it a failure. -/
def observe {α : Type} (a : Attempt α) : Attempt (Except Database.Error α) := ExceptT.lift a.run

def connection (slot : Nat) : Attempt Connection := do
  match (← get).connection? slot with
  | some c => return c
  | none => refuse .unreachable

def setFiles (fs : FileSystem) : Attempt Unit := modify (·.setFiles fs)

end Attempt

end CobolDialects
