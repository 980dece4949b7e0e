import CobolDialects.Settings.DatabaseFile
import CobolDialects.Settings.File
import CobolDialects.Settings.Memory
import CobolDialects.Settings.Scripted

/-!
# Stores side by side

A world holds a file system, an engine that works on it, and the stores that live beside them. A
handle says which store is meant, and gives the store as one on the whole world, so that stores of
every kind, and scripted ones in front of others, can be used in one run.
-/

namespace CobolDialects

open Settings

/-- Which store is meant. -/
inductive Handle where
  | memory (slot : Nat)
  | file (path : Path)
  | database (connection : Nat)
  | scripted (slot : Nat) (inner : Handle)
deriving DecidableEq, Repr

/-- Everything that stores keep. -/
structure World where
  /-- The file system and the connections to the databases on it. -/
  engine : Engine
  memories : List Memory
  scripts : List Script

namespace World

def empty : World := ⟨.onFiles .empty, [], []⟩

def files (w : World) : FileSystem := w.engine.files

def memory (w : World) (slot : Nat) : Memory := w.memories.getD slot []

def setMemory (slot : Nat) (m : Memory) (w : World) : World :=
  { w with memories := w.memories.set slot m }

def script (w : World) (slot : Nat) : Script := w.scripts.getD slot ⟨[], [], []⟩

def setScript (slot : Nat) (s : Script) (w : World) : World :=
  { w with scripts := w.scripts.set slot s }

def setEngine (e : Engine) (w : World) : World := { w with engine := e }

def setFiles (fs : FileSystem) (w : World) : World := { w with engine := w.engine.setFiles fs }

end World

namespace Handle

/-- The store of a handle, at a time in milliseconds. -/
def store (time : Int) : Handle → Store World
  | .memory slot => Memory.store.within (·.memory slot) (World.setMemory slot)
  | .file path => (File.store .none path).within World.files World.setFiles
  | .database slot => (DatabaseFile.store time slot).within World.engine World.setEngine
  | .scripted slot inner =>
    (Script.store (inner.store time)).within (fun w => (w.script slot, w))
      fun (script, w) _ => w.setScript slot script

/-- The connection that a handle holds open. -/
def connection? : Handle → Option Nat
  | .database slot => some slot
  | .scripted _ inner => inner.connection?
  | _ => none

end Handle

/-- The world in which only the connections that some handles hold are still open. -/
def World.keepOnly (handles : List Handle) (w : World) : World :=
  let held := handles.filterMap Handle.connection?
  let dropped := (List.range w.engine.connections.length).filter fun slot => !held.contains slot
  w.setEngine (dropped.foldl Engine.close w.engine)

end CobolDialects
