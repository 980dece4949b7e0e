import CobolDialects.Engine.Settling

/-!
# Closing connections

The last connection that leaves a log brings it to the file of the database and removes it.
-/

namespace CobolDialects.Engine

open Database

/-- The engine for which a log has been brought to the file of its database. None if the log
cannot be read; a log that does not fit the file spoils it. -/
def checkpoint? (e : Engine) (file : Nat) (use : LogUse) : Option Engine :=
  if e.reach use.index = 0 then some e
  else
    match e.content use.log with
    | .log l => (l.state? (e.reach use.index)).map fun db =>
      e.setContent file <|
        if l.isMergeable (e.content file).database? then .database db
        else .bytes ((e.content file).shown ++ [0xFF])
    | _ => none

/-- Leaves a log that no other connection takes part in: it is brought to the file of the database
and removed, if that can be done. -/
def leaveLog (e : Engine) (c : Connection) (at_ : Location) (use : LogUse) : Engine :=
  match e.checkpoint? c.file use with
  | none => e
  | some done =>
    if c.readOnly ∨ e.isMoved c ∨ use.writable = false then e
    else
      { done with
        files := use.place.toList.foldl (·.unlink ·)
          (done.files.unlink (Location.beside at_ logEnding)) }

/-- Whether there is a connection to a database. -/
def isOpen (e : Engine) (file : Nat) : Bool :=
  e.openConnections.any (·.file = file)

/-- Closes a connection. A database in memory is gone with the last one. -/
def close (e : Engine) (slot : Nat) : Engine :=
  match e.connection? slot with
  | none => e
  | some c =>
    let rest := { e with connections := e.connections.set slot none }
    match c.location, c.log with
    | some at_, some use => if rest.hasLogger c.file then rest else rest.leaveLog c at_ use
    | _, _ =>
      if rest.isOpen c.file then rest
      else { rest with named := rest.named.filter (·.file ≠ c.file) }

end CobolDialects.Engine
