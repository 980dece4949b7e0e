import CobolDialects.Engine.Basic
import CobolDialects.FileSystem.Beside

/-!
# Opening connections

A connection is opened by the name of its database. The path in the name is followed name by name:
two dots take back the name in front of them, be there a directory or not, and a symbolic link is
replaced by its target. The file is made if it is missing and the name of the database permits
that.
-/

namespace CobolDialects

namespace FileSystem

/-- The length that a path stays below while it is followed. -/
def followedLimit : Nat := 512

/-- How many symbolic links are replaced in one path. -/
def maxReplacements : Nat := 201

/-- Follows names from a location. A link is handed on with the location that holds it and the names
behind it. -/
def followNames (fs : FileSystem) (jump : Location → Path → List Name → Option Location) :
    Location → List Name → Option Location
  | here, [] => some here
  | here, name :: rest =>
    if name = Path.dot then followNames fs jump here rest
    else if name = Path.dotDot then followNames fs jump here.dropLast rest
    else if followedLimit ≤ (Location.path (here ++ [name])).length then none
    else
      match fs.find false (Location.path (here ++ [name])) with
      | .ok (_, .link target) => jump here target rest
      | .ok _ | .error .notFound => followNames fs jump (here ++ [name]) rest
      | .error _ => none

/-- Follows names from a location, replacing a number of links. -/
def followLinks (fs : FileSystem) : Nat → Location → List Name → Option Location
  | 0 => fs.followNames fun _ _ _ => none
  | links + 1 => fs.followNames fun here target rest =>
    followLinks fs links (if target.isAbsolute then [] else here) (target.names ++ rest)

/-- The location that a path stands for, whatever is there. -/
def locate? (fs : FileSystem) (p : Path) : Option Location :=
  fs.followLinks maxReplacements (fs.start p) p.names

end FileSystem

namespace Engine

open Database

/-- A connection that has done nothing yet. -/
def newConnection (a : Address) (process file : Nat) (location : Option Location) :
    Connection where
  process
  file
  location
  system := a.system
  immutable := a.isImmutable
  readOnly := a.mode = .readOnly || a.isImmutable
  lockless := a.isSet "nolock"
  indexReadOnly := a.isSet "readonly_shm"
  sharing := a.inMemory && a.shared
  log := none
  known := none
  cached := none

/-- Takes a connection on. Its slot is the next one. -/
def enter (a : Address) (file : Nat) (location : Option Location) : Attempt Nat := do
  let e ← get
  set (e.addConnection (newConnection a e.process file location))
  return e.connections.length

/-- The database in memory that has a name. -/
def named? (e : Engine) (name : Bytes) : Option NamedDatabase :=
  e.named.find? fun d => d.process = e.process && d.name = name

/-- Connects to a database that has no files: that of a name if it is there, or else a new one. -/
def connectFileless (a : Address) : Attempt Nat := do
  let e ← get
  match a.sharedName?.bind e.named? with
  | some d => enter a d.file none
  | none =>
    let file := e.files.nodes.length
    set { e with
      files := e.files.addNode ⟨.bytes [], FileSystem.privateMode⟩
      named := e.named ++
        (a.sharedName?.map fun name => NamedDatabase.mk e.process name file).toList }
    enter a file none

/-- The mode of a file that is made: that of another file if the address says so. -/
def modeFor (a : Address) : Attempt Nat := do
  match a.value? "modeof" with
  | none => return 0
  | some path =>
    match (← get).files.permissionsAt? path with
    | some mode => return mode
    | none => Attempt.refuse (.io Obstacle.ioCode)

/-- The longest full path of a database. -/
def maxFullPath : Nat := 504

/-- Connects to the database in a file. -/
def connectFile (name : Path) (a : Address) : Attempt Nat := do
  let fs := (← get).files
  match (fs.locate? a.path).filter fun at_ => at_.path.length ≤ maxFullPath with
  | none => throw (.cannotOpen name)
  | some at_ =>
    let mode ← modeFor a
    match fs.openAt? at_ (a.mode = .create) mode with
    | some (file, opened) =>
      Attempt.setFiles opened
      enter a file (some at_)
    | none =>
      if a.mode = .readOnly ∧ fs.isDirectory at_.path then Attempt.refuse (.io Obstacle.ioCode)
      else throw (.cannotOpen name)

/-- Connects to the database of a name. -/
def connect (name : Path) : Attempt Nat := do
  if name.contains 0 then throw (.nulInPath (name.findIdx (· = 0)))
  match Address.read name with
  | .error e => throw (.address e)
  | .ok a => if a.isFileless then connectFileless a else connectFile name a

end Engine

end CobolDialects
