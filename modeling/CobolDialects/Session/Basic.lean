import CobolDialects.CommandLine.Run
import CobolDialects.Database.Foreign
import CobolDialects.Session.World

/-!
# Sessions

A session is a list of steps in one directory that is empty at first: stores and catalogs are opened
under names and used, files are made and looked at, and the program is run.
-/

namespace CobolDialects.Session

open Settings

/-- The stores that can be opened. -/
inductive Opening where
  | memory
  /-- Memory with the value of a text under a key. -/
  | memoryWith (key text : String)
  | file (path : Path)
  | database (path : Path)
  | databaseInMemory
  | scripted (inner : String) (onGet : List GetTurn) (onSet : List SetTurn)

/-- A call to a store. -/
inductive StoreCall where
  | get (key : String)
  | set (key text : String)
  | updatedAt (key : String)
  | calls

/-- A call to a catalog. -/
inductive CatalogCall where
  | key | list | paths
  | find (name : String)
  | register (d : Descriptor)

/-- What another program does to a database. -/
inductive Tampering where
  | drop
  | create (shape : Shape)
  | put (key : String) (value : Cell) (stamp : Database.Stamp)

/-- Something done to files, or learnt about them. -/
inductive FileCall where
  | write (path : Path) (content : Bytes)
  | read (path : Path)
  | makeDirectories (path : Path)
  | remove (path : Path)
  | symlink (path target : Path)
  | hardLink (path target : Path)
  | changeMode (path : Path) (mode : Nat)
  | stat (path : Path)
  | list
  | readLog (path : Path)

inductive Step where
  | openStore (name : String) (what : Opening)
  | openCatalog (store name : String) (key : Option String)
  | close (name : String)
  | store (name : String) (call : StoreCall)
  | catalog (name : String) (call : CatalogCall)
  | files (call : FileCall)
  | tamper (path : Path) (what : Tampering)
  | dump (path : Path)
  | run (args : List Bytes) (env : Locations.Environment)

/-- A time of writing as it is told: all recent ones are alike. -/
inductive Moment where
  | recent
  | at (n : Int)
deriving DecidableEq, Repr

/-- The last time that is not recent. -/
def pastUntil : Int := 1500000000000

def Moment.of (n : Int) : Moment := if pastUntil < n then .recent else .at n

/-- How a run of the program is told. -/
structure Ending where
  code : Nat
  output : String
  errors : Option String
deriving DecidableEq, Repr

/-- Of wrong usage only the first line is told, and nothing of a run that was broken off. -/
def Ending.of (e : CommandLine.Exit) : Ending where
  code := e.code
  output := e.output
  errors :=
    if e.code = 2 then e.errors.map fun text => String.ofList (text.toList.takeWhile (· ≠ '\n'))
    else e.errors.map Logging.withoutTimes

inductive Answer where
  | nothing
  | text (s : String)
  | bytes (b : Bytes)
  | texts (ss : List String)
  | paths (ps : List Path)
  | descriptor (d : Option Descriptor)
  | descriptors (ds : List Descriptor)
  | value (v : Option Json)
  | moment (m : Option Moment)
  | calls (cs : List Call)
  | entry (e : Entry) (mode : Option Nat)
  | relation (journal : Journal) (r : Relation)
  | ending (e : Ending)

/-- Why a step fails. -/
inductive Failure where
  | unknownName
  | unreadable (e : Json.ReadError)
  | settings (e : Error)
  | files (fault : Fault)
  | database (r : Database.Refusal)

/-- The class of a failure. -/
def Failure.className : Failure → String
  | .unknownName | .unreadable _ => "BadInput"
  | .settings e => e.className
  | .files _ => "Fs"
  | .database _ => "Sql"

def Failure.message : Failure → String
  | .unknownName => "no such store or catalog"
  | .unreadable e => e.message
  | .settings e => e.message
  | .files fault => fault.message
  | .database r => r.message

/-- A catalog: the store it works on and its key. -/
structure OpenCatalog where
  handle : Handle
  key : String

/-- The world, and the names given to stores and catalogs. -/
structure State where
  world : World
  stores : List (String × Handle)
  catalogs : List (String × OpenCatalog)

def State.start : State := ⟨.empty, [], []⟩

/-- What a step gives, the state behind it, and the events reported meanwhile. -/
structure Outcome where
  result : Except Failure Answer
  state : State
  events : List Event

end CobolDialects.Session
