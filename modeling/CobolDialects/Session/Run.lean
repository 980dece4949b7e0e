import CobolDialects.Logging.Directive
import CobolDialects.Session.Basic

/-!
# Running sessions

What each step does. A step that fails changes no name; what else it leaves behind is what its
calls leave behind. A connection to a database is closed when no name leads to it any more.
-/

namespace CobolDialects.Session

open Settings

namespace State

/-- Gives a name to a store. -/
def nameStore (s : State) (name : String) (h : Handle) : State :=
  { s with stores := s.stores.filter (·.1 ≠ name) ++ [(name, h)] }

def nameCatalog (s : State) (name : String) (c : OpenCatalog) : State :=
  { s with catalogs := s.catalogs.filter (·.1 ≠ name) ++ [(name, c)] }

/-- Takes a name from whatever has it. -/
def forget (s : State) (name : String) : State :=
  { s with
    stores := s.stores.filter (·.1 ≠ name)
    catalogs := s.catalogs.filter (·.1 ≠ name) }

def setFiles (s : State) (fs : FileSystem) : State := { s with world := s.world.setFiles fs }

def setEngine (s : State) (e : Engine) : State := { s with world := s.world.setEngine e }

/-- Closes the connections that no name leads to. -/
def release (s : State) : State :=
  { s with
    world := s.world.keepOnly (s.stores.map (·.2) ++ s.catalogs.map (·.2.handle)) }

/-- The store of a name: that of a catalog, or one named itself. -/
def handle? (s : State) (name : String) : Option Handle :=
  match s.catalogs.lookup name with
  | some c => some c.handle
  | none => s.stores.lookup name

end State

/-- A step that fails and leaves everything as it was. -/
def refused (s : State) (f : Failure) : Outcome := ⟨.error f, s, []⟩

/-- A step that tells something and leaves everything as it was. -/
def told (s : State) (a : Answer) : Outcome := ⟨.ok a, s, []⟩

/-- The outcome of calls to stores as one of a step. -/
def ofStore {α : Type} (s : State) (o : Settings.Outcome World α) (answer : α → Answer) :
    Outcome where
  result := match o.result with
    | .ok a => .ok (answer a)
    | .error e => .error (.settings e)
  state := { s with world := o.state }
  events := o.events

/-! ## Opening -/

def openMemory (s : State) (name : String) (m : Memory) : Outcome :=
  let slot := s.world.memories.length
  let world := { s.world with memories := s.world.memories ++ [m] }
  told (({ s with world } : State).nameStore name (.memory slot)) .nothing

/-- Names the store that has opened a database. -/
def openDatabase (s : State) (name : String) (o : Settings.Outcome Engine Nat) : Outcome :=
  let opened := s.setEngine o.state
  match o.result with
  | .ok slot => ⟨.ok .nothing, opened.nameStore name (.database slot), o.events⟩
  | .error e => ⟨.error (.settings e), opened, o.events⟩

def openScripted (s : State) (name inner : String) (onGet : List GetTurn) (onSet : List SetTurn) :
    Outcome :=
  match s.handle? inner with
  | none => refused s .unknownName
  | some h =>
    let slot := s.world.scripts.length
    let world := { s.world with scripts := s.world.scripts ++ [⟨[], onGet, onSet⟩] }
    told (({ s with world } : State).nameStore name (.scripted slot h)) .nothing

def openStore (s : State) (name : String) : Opening → Outcome
  | .memory => openMemory s name []
  | .memoryWith key text =>
    match Json.read text with
    | .ok v => openMemory s name [(key, v)]
    | .error e => refused s (.unreadable e)
  | .file path => told (s.nameStore name (.file path)) (.bytes path)
  | .database path => openDatabase s name (DatabaseFile.openPath path s.world.engine)
  | .databaseInMemory => openDatabase s name (DatabaseFile.openInMemory s.world.engine)
  | .scripted inner onGet onSet => openScripted s name inner onGet onSet

/-! ## Stores and catalogs -/

/-- Calls a store, at a time in milliseconds. -/
def callStore (time : Int) (s : State) (h : Handle) : StoreCall → Outcome
  | .get key => ofStore s ((h.store time).get key s.world) .value
  | .set key text =>
    match Json.read text with
    | .ok v => ofStore s ((h.store time).set key v s.world) fun () => .nothing
    | .error e => refused s (.unreadable e)
  | .updatedAt key =>
    match h with
    | .database slot =>
      ofStore s ((DatabaseFile.updatedAt slot key s.world.engine).lift (s.world.setEngine ·))
        fun t => .moment (t.map Moment.of)
    | _ => refused s .unknownName
  | .calls =>
    match h with
    | .scripted slot _ => told s (.calls (s.world.script slot).calls)
    | _ => refused s .unknownName

def callCatalog (time : Int) (s : State) (c : OpenCatalog) : CatalogCall → Outcome
  | .key => told s (.text c.key)
  | .list => ofStore s ((Catalog.list c.key).run (c.handle.store time) s.world) .descriptors
  | .paths => ofStore s ((Catalog.paths c.key).run (c.handle.store time) s.world) .texts
  | .find name =>
    ofStore s ((Catalog.find c.key name).run (c.handle.store time) s.world) .descriptor
  | .register d =>
    ofStore s ((Catalog.register c.key d).run (c.handle.store time) s.world) fun () => .nothing

/-! ## Files -/

/-- The outcome of a change to the file system. -/
def ofChange (s : State) : Except Fault FileSystem → Outcome
  | .ok fs => told (s.setFiles fs) .nothing
  | .error fault => refused s (.files fault)

/-- The outcome of several calls to the file system, some of which may have succeeded. -/
def ofCalls (s : State) : Except Fault Unit × FileSystem → Outcome
  | (.ok (), fs) => told (s.setFiles fs) .nothing
  | (.error fault, fs) => refused (s.setFiles fs) (.files fault)

/-- The outcome of a look at the file system. -/
def ofLook {α : Type} (s : State) (answer : α → Answer) : Except Fault α → Outcome
  | .ok a => told s (answer a)
  | .error fault => refused s (.files fault)

def callFiles (s : State) (call : FileCall) : Outcome :=
  let fs := s.world.files
  match call with
  | .write path content => ofChange s (fs.writeFile path content)
  | .read path => ofLook s .bytes (fs.read path)
  | .makeDirectories path => ofCalls s (fs.makeDirectories path)
  | .remove path => ofCalls s (fs.remove path)
  | .symlink path target => ofChange s (fs.makeLink path target)
  | .hardLink path target => ofChange s (fs.makeHardLink path target)
  | .changeMode path mode => ofChange s (fs.changeMode path mode)
  | .stat path => ofLook s (fun (entry, mode) => .entry entry mode) (fs.stat path)
  | .list => told s (.paths fs.paths)
  | .readLog path =>
    ofLook s (fun bytes => .text (Logging.withoutTimes (shownText bytes))) (fs.read path)

/-- The outcome of what another program does on a connection of its own. -/
def ofVisit {α : Type} (s : State) (a : Attempt (Except Database.Refusal α)) (answer : α → Answer) :
    Outcome :=
  match a.on s.world.engine with
  | (.ok (.ok x), e) => told (s.setEngine e) (answer x)
  | (.ok (.error r), e) => refused (s.setEngine e) (.database r)
  | (.error error, e) => refused (s.setEngine e) (.database (.statement error))

def Tampering.apply (t : Tampering) (db : Database) : Except Database.Refusal Database :=
  match t with
  | .drop => db.drop
  | .create shape => db.create shape
  | .put key value stamp => db.put key value stamp

/-- Changes a database. A row that breaks a rule is refused only when it is written. -/
def Tampering.perform (t : Tampering) (slot : Nat) : Attempt (Except Database.Refusal Unit) := do
  let db ← Engine.view slot
  match t.apply db with
  | .ok changed => .ok <$> Engine.commit slot db changed
  | .error .nullValue =>
    Engine.requireWritable slot
    return .error .nullValue
  | .error r => return .error r

def tamper (s : State) (path : Path) (t : Tampering) : Outcome :=
  ofVisit s (Engine.visit path t.perform) fun () => .nothing

/-- The relation of a database, and how changes of it are secured. -/
def contents (slot : Nat) : Attempt (Except Database.Refusal (Journal × Relation)) := do
  let db ← Engine.view slot
  let c ← Attempt.connection slot
  return (db.relation.map (Engine.journal c, ·)).elim (.error (.statement .noTable)) .ok

def dump (s : State) (path : Path) : Outcome :=
  ofVisit s (Engine.visit path contents) fun (journal, r) => .relation journal r

/-! ## Steps -/

/-- Takes one step, at a time in microseconds. -/
def act (time : Nat) (s : State) : Step → Outcome
  | .openStore name what => openStore s name what
  | .openCatalog store name key =>
    match s.handle? store with
    | none => refused s .unknownName
    | some handle =>
      let key := key.getD Locations.registryKey
      told (s.nameCatalog name ⟨handle, key⟩) (.text key)
  | .close name => told (s.forget name) .nothing
  | .store name call =>
    match s.handle? name with
    | none => refused s .unknownName
    | some h => callStore (time / 1000 : Nat) s h call
  | .catalog name call =>
    match s.catalogs.lookup name with
    | none => refused s .unknownName
    | some c => callCatalog (time / 1000 : Nat) s c call
  | .files call => callFiles s call
  | .tamper path what => tamper s path what
  | .dump path => dump s path
  | .run args env =>
    let (exit, e) := CommandLine.run .targets args env time { s.world.engine with process := 1 }
    told (s.setEngine { e with process := 0 }) (.ending (.of exit))

/-- Takes one step and closes the connections that are no longer needed. -/
def step (time : Nat) (s : State) (t : Step) : Outcome :=
  let o := act time s t
  { o with state := o.state.release }

/-- Takes steps one after the other. -/
def runFrom (time : Nat) : State → List Step → List Outcome
  | _, [] => []
  | s, t :: ts =>
    let o := step time s t
    o :: runFrom time o.state ts

/-- The outcomes of the steps of a session. -/
def run (time : Nat) (steps : List Step) : List Outcome := runFrom time .start steps

end CobolDialects.Session
