import CobolDialects.Engine.Basic
import CobolDialects.FileSystem.Beside

/-!
# What lies beside a database

Before a connection reads, it deals with what lies beside the file of its database: it undoes a
change that was broken off, and takes part in a log if there is one or the database asks for it.
From then on its changes go to the log, and those of others are seen there.
-/

namespace CobolDialects.Engine

open Database

/-! ## The file of a database -/

/-- Whether a file holds nothing. -/
def isVoid (e : Engine) (file : Nat) : Bool := (e.files.contentOf file).length ≤ 1

/-- Whether the path at which a connection found its database leads elsewhere now. Not every system
can tell, and for an empty database nobody asks. -/
def isMoved (e : Engine) (c : Connection) : Bool :=
  match c.location with
  | none => false
  | some at_ =>
    (c.system = .standard || c.system = .exclusive) && !(c.log.isNone && e.isVoid c.file) &&
      !e.files.leadsTo at_ c.file

/-- Whether the database in a file asks for a log. -/
def asksForLog (e : Engine) (file : Nat) : Bool := (e.content file).database?.any (·.logged)

/-- Whether a connection takes part in the log of a database. -/
def hasLogger (e : Engine) (file : Nat) : Bool :=
  e.openConnections.any fun c => c.file = file && c.log.isSome

/-- Whether others take part in a log of the database, so that a connection cannot lock its file. -/
def isHeld (e : Engine) (c : Connection) : Bool := c.locksFile && e.hasLogger c.file

/-- Whether a connection of another process keeps a connection away from its database. -/
def isBarred (e : Engine) (c : Connection) : Bool :=
  c.locksFile && e.openConnections.any fun d =>
    d.file = c.file && d.process ≠ c.process && d.locksFile &&
      (d.system = .exclusive || (c.system = .exclusive && d.log.isSome))

/-! ## A change that was broken off -/

/-- The ending of the name of a journal. -/
def journalEnding : String := "-journal"

/-- Undoes the change that a journal tells of, and removes the journal. A log that others take
part in keeps the database from being changed. -/
def rollBack (c : Connection) (journal : Location) : Attempt Unit := do
  let e ← get
  if c.readOnly then Attempt.refuse (.readOnly Obstacle.rollbackCode)
  else if e.isHeld c then Attempt.refuse .locked
  else
    match e.files.entry? journal with
    | some (.file _) => Attempt.setFiles (e.files.unlink journal)
    | _ => Attempt.refuse .unreachable

/-- Deals with a journal that lies beside a database. It tells of a change unless it begins with a
zero; beside an empty database it is just removed. -/
def settleJournal (c : Connection) (at_ : Location) : Attempt Unit := do
  let e ← get
  let journal := Location.beside at_ journalEnding
  if e.files.isOccupied journal then
    if e.isVoid c.file then
      if ¬ c.readOnly then Attempt.setFiles (e.files.unlink journal)
    else if (e.files.permissionsAt? at_.path).isNone then
      Attempt.refuse (.io Obstacle.statCode)
    else
      match e.files.entry? journal with
      | some .directory => Attempt.refuse (.io Obstacle.readCode)
      | some (.file n) => if (e.files.contentOf n).head? ≠ some 0 then rollBack c journal
      | _ => rollBack c journal

/-! ## The log -/

/-- The ending of the name of a log. -/
def logEnding : String := "-wal"

/-- The ending of the name of the index of a log. -/
def indexEnding : String := "-shm"

/-- An index in memory. -/
def addIndex (reach : Nat) : Attempt Nat := do
  let fs := (← get).files
  Attempt.setFiles (fs.addNode ⟨.logIndex reach, FileSystem.privateMode⟩)
  return fs.nodes.length

/-- Whether a process other than that of a connection uses an index. -/
def isForeign (e : Engine) (c : Connection) (index : Nat) : Bool :=
  e.openConnections.any fun d => d.process ≠ c.process && d.log.any (·.index = index)

/-- Opens the index beside a database, for the first connection of its process that takes part in
the log. Unless another process uses it, the index is made anew from what is found in the log. -/
def openIndex (c : Connection) (at_ : Location) (log reach : Nat) : Attempt LogUse := do
  let e ← get
  let place := Location.beside at_ indexEnding
  let mode := ((e.files.node? c.file).map fun node => FileSystem.permissions node.mode).getD 0
  if c.system = .exclusive then return ⟨log, ← addIndex reach, none, true⟩
  match if c.indexReadOnly then none else e.files.openAt? place true mode with
  | some (index, opened) =>
    let e := e.setFiles opened
    set (if e.isForeign c index then e else e.setReach index reach)
    return ⟨log, index, some place, true⟩
  | none =>
    match e.files.entry? place with
    | some .directory | some (.file _) => return ⟨log, ← addIndex reach, some place, false⟩
    | _ => Attempt.refuse .unreachable

/-- How a connection takes part in a log: with the index that others of its process have for the
database. -/
def useLog (c : Connection) (at_ : Location) (log : Nat) : Attempt LogUse := do
  let e ← get
  let peer := e.openConnections.find? fun d =>
    d.process = c.process && d.file = c.file && d.log.isSome
  match peer.bind (·.log) with
  | some use => return { use with log }
  | none =>
    openIndex c at_ log <|
      match e.content log with
      | .log l => l.reach
      | _ => 0

/-- Lets a connection take part in the log beside its database. The log has the mode of what is at
the path of the database. -/
def joinLog (slot : Nat) (c : Connection) (at_ : Location) : Attempt Unit := do
  if ¬ c.supportsLog then Attempt.refuse .unreachable
  let fs := (← get).files
  match fs.permissionsAt? at_.path with
  | none => Attempt.refuse (.io Obstacle.statCode)
  | some mode =>
    match fs.openAt? (Location.beside at_ logEnding) true mode with
    | none => Attempt.refuse .unreachable
    | some (log, opened) =>
      Attempt.setFiles opened
      let use ← useLog c at_ log
      modify fun e => e.update slot fun c => { c with log := some use }

/-- Joins the log of a database if there is one, or else if the database asks for one. A log
beside an empty database is removed. -/
def settleLog (slot : Nat) (c : Connection) (at_ : Location) : Attempt Unit := do
  let e ← get
  let log := Location.beside at_ logEnding
  if e.files.isOccupied log then
    if ¬ e.isVoid c.file then joinLog slot c at_
    else if e.files.entry? log = some .directory then Attempt.refuse (.io Obstacle.removeCode)
    else Attempt.setFiles (e.files.unlink log)
  else if e.asksForLog c.file then joinLog slot c at_

/-- The ending of the name of a directory that is a lock. -/
def lockEnding : String := ".lock"

/-- Deals with what lies beside the database of a connection, unless that has been done for good. -/
def settle (slot : Nat) : Attempt Unit := do
  let c ← Attempt.connection slot
  match c.location with
  | none => return
  | some at_ =>
    if c.immutable ∨ c.log.isSome then return
    if (← get).isBarred c then Attempt.refuse .locked
    if c.system = .lockDirectory ∧
        ((← get).files.find false (Location.beside at_ lockEnding).path).isOk then
      Attempt.refuse .locked
    settleJournal c at_
    settleLog slot c at_

end CobolDialects.Engine
