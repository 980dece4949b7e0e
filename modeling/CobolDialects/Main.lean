import CobolDialects.CommandLine.Run
import CobolDialects.Database.Document
import CobolDialects.Logging.Directive
import Std.Time.DateTime.Timestamp

/-!
# The program

Brings what a run can touch from the disk into a file system, runs the program on it, and takes what
has changed back to the disk.
-/

namespace CobolDialects.Main

/-- What the disk holds at a path: nothing, a directory, or a file. -/
def probe (path : String) : IO (Option (Option Bytes)) := do
  try
    let bytes ← IO.FS.readBinFile path
    return some (some bytes.toList)
  catch
    | .noFileOrDirectory .. => return none
    | _ => return some none

/-- The location that a path spells. -/
def locationOf (fs : FileSystem) (path : Path) : Location :=
  path.names.foldl
    (fun here name =>
      if name = Path.dot then here
      else if name = Path.dotDot then here.dropLast
      else here ++ [name])
    (fs.start path)

def contentOf (bytes : Bytes) : Content :=
  match Database.ofBytes? bytes with
  | some db => .database db
  | none => .bytes bytes

/-- Adds to a file system what the disk holds at a path and above it. -/
def load (fs : FileSystem) (path : Path) : IO FileSystem :=
  (FileSystem.chain path).reverse.foldlM
    (fun fs p => do
      let location := locationOf fs p
      match ← probe (shownText p) with
      | none => return fs
      | some none => return fs.setEntry location .directory
      | some (some bytes) =>
        return fs.addFile location ⟨contentOf bytes, FileSystem.publicMode⟩)
    fs

/-- The file at a path. -/
def nodeAt? (fs : FileSystem) (path : Path) : Option Node :=
  (fs.fileNode path).toOption.bind fs.node?

def savedBytes : Content → Bytes
  | .database db => db.toBytes
  | content => content.shown

/-- Puts a file on the disk: beside its path first if it is private. -/
def put (path : String) (node : Node) : IO Unit := do
  let bytes := ByteArray.mk (savedBytes node.content).toArray
  if node.mode = FileSystem.privateMode then
    let temporary := path ++ ".tmp"
    IO.FS.writeBinFile temporary bytes
    IO.setAccessRights temporary ⟨⟨true, true, false⟩, ⟨false, false, false⟩, ⟨false, false, false⟩⟩
    IO.FS.rename temporary path
  else IO.FS.writeBinFile path bytes

/-- Takes to the disk what has changed at a path and above it. -/
def save (before after : FileSystem) (path : Path) : IO Unit := do
  for p in (FileSystem.chain path).tail.reverse do
    if after.isDirectory p ∧ ¬ before.isDirectory p then IO.FS.createDirAll (shownText p)
  match nodeAt? after path with
  | none => return
  | some node => if nodeAt? before path ≠ some node then put (shownText path) node

/-- The files of a backend at a path. -/
def filesAt (path : Path) : CommandLine.Backend → List Path
  | .json => [path]
  | .sqlite =>
    match Database.Address.read path with
    | .ok a => if a.isFileless then [path] else [path, a.path].eraseDups
    | .error _ => [path]

/-- The settings file of a run, if the arguments ask for one, and its log. -/
def touched (args : List Bytes) (env : Locations.Environment) : List Path :=
  match CommandLine.readArguments args with
  | .ok inv => Locations.logPath env :: filesAt (inv.location env) inv.backend
  | .error _ => []

def environment : IO Locations.Environment := do
  let value (name : String) : IO (Option Bytes) := return (← IO.getEnv name).map bytesOf
  return ⟨← value "XDG_CONFIG_HOME", ← value "XDG_DATA_HOME", ← value "HOME", ← value "RUST_LOG"⟩

/-- The time in microseconds. -/
def now : IO Nat := do
  let time ← Std.Time.Timestamp.now
  return time.toNanosecondsSinceUnixEpoch.toInt.toNat / 1000

/-- Runs the program with log filters of targets and levels. -/
def run (args : List String) : IO UInt32 := do
  let args := args.map bytesOf
  let env ← environment
  let working := Path.names (bytesOf (← IO.currentDir).toString)
  let paths := touched args env
  let before ← paths.foldlM load { FileSystem.empty with working }
  let (exit, after) := CommandLine.run .targets args env (← now) (.onFiles before)
  for path in paths do save before after.files path
  IO.print exit.output
  IO.eprint (exit.errors.getD "")
  return UInt32.ofNat exit.code

end CobolDialects.Main

def main (args : List String) : IO UInt32 := CobolDialects.Main.run args
