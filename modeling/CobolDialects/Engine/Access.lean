import CobolDialects.Engine.Settling

/-!
# Reading and changing databases

A connection that takes part in a log sees the state of the database to which the index of the log
leads. Any other one sees what is in the file of the database.
-/

namespace CobolDialects.Engine

open Database

/-! ## Reading -/

/-- The database as a log and its index give it, if the connection has not read it before. -/
def throughLog (e : Engine) (file : Nat) (use : LogUse) : Except Error Database :=
  match e.content use.log with
  | .log l =>
    match l.state? (e.reach use.index) with
    | none => .error (.obstacle (.io Obstacle.shortReadCode))
    | some db =>
      if l.isMergeable (e.content file).database? then .ok db
      else .error (.obstacle .notADatabase)
  | _ => .error (.obstacle (.io Obstacle.shortReadCode))

/-- The database as its file gives it, if the connection has read it before or not. -/
def besideLog (e : Engine) (file : Nat) (cached : Option Database) : Except Error Database :=
  match e.content file, cached with
  | .database db, _ => .ok db
  | _, some _ => .error (.obstacle .malformed)
  | content, none => content.asDatabase

/-- The database as a connection sees it. -/
def seen (e : Engine) (c : Connection) : Except Error Database :=
  match c.log, c.cached with
  | some use, cached =>
    if e.reach use.index = 0 then e.besideLog c.file cached
    else cached.elim (e.throughLog c.file use) .ok
  | none, some db => .ok db
  | none, none => (e.content c.file).asDatabase

/-- Reads the database of a connection. -/
def view (slot : Nat) : Attempt Database := do
  settle slot
  let c ← Attempt.connection slot
  let e ← get
  match e.seen c with
  | .error error => throw error
  | .ok db =>
    if c.immutable ∨ c.log.isSome then
      set (e.update slot fun c => { c with cached := some db })
    return db

/-! ## Changing -/

/-- Fails if a connection is for reading only. -/
def requireWritable (slot : Nat) : Attempt Unit := do
  if (← Attempt.connection slot).readOnly then
    Attempt.refuse (.readOnly Obstacle.readOnlyCode)

/-- Replaces what is in the file of a database, in the shelter of a journal. -/
def commitToFile (c : Connection) (at_ : Location) (db : Database) : Attempt Unit := do
  let e ← get
  let journal := Location.beside at_ journalEnding
  if e.isMoved c then Attempt.refuse (.readOnly Obstacle.movedCode)
  match e.files.permissionsAt? at_.path with
  | none => Attempt.refuse (.io Obstacle.statCode)
  | some mode =>
    match e.files.openAt? journal true mode with
    | none => Attempt.refuse .unreachable
    | some (_, opened) =>
      if e.isHeld c then Attempt.refuse .locked
      Attempt.setFiles ((opened.setContent c.file (.database db)).unlink journal)

/-- The log that is in a file once a change is added behind as many others as its index leads to. -/
def extendedLog (content : Content) (reach : Nat) (before after : Database) : Log :=
  match reach, content with
  | 0, _ => .begin before after
  | _, .log l => l.add reach before after
  | _, _ => (Log.lost reach).add reach before after

/-- Adds a change to the log of a database. -/
def commitToLog (slot : Nat) (use : LogUse) (before after : Database) : Attempt Unit := do
  let e ← get
  if ¬ use.writable then Attempt.refuse (.readOnly Obstacle.readOnlyCode)
  let reach := e.reach use.index
  let written := e.setContent use.log (.log (extendedLog (e.content use.log) reach before after))
  set ((written.setReach use.index (reach + 1)).update slot
    fun c => { c with cached := some after })

/-- Replaces a database, as it was seen before, by another one. -/
def commit (slot : Nat) (before after : Database) : Attempt Unit := do
  requireWritable slot
  let c ← Attempt.connection slot
  match c.location, c.log with
  | none, _ => modify (·.setContent c.file (.database after))
  | some _, some use => commitToLog slot use before after
  | some at_, none => commitToFile c at_ after

/-- How changes made through a connection are secured. -/
def journal (c : Connection) : Journal :=
  match c.location, c.log with
  | none, _ => .memory
  | some _, some _ => .log
  | some _, none => .rollback

end CobolDialects.Engine
