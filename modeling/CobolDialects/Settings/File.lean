import CobolDialects.FileSystem.Change
import CobolDialects.Json.Printer
import CobolDialects.Settings.Store

/-!
# Settings in a file

The settings are the members of one object in a file. Reading keeps the order in which their keys
first occur. Writing goes through steps, each of them one call to the system: the directories above
the file are made, the new document is written to a temporary file beside it and brought to the
disk, and the temporary file is moved over the path. So the path never leads to half a document, and
a write that fails removes its temporary file again.
-/

namespace CobolDialects.Settings.File

/-! ## Reading -/

/-- The settings of an object: each key once, where it first occurred, with its last value. -/
def settingsOf (ms : Members) : Members := (Json.canonicalMembers ms).ordered

/-- The settings in the text of a file; `key` is the one they are read for. A blank text has
none. -/
def parse (file : Path) (key : String) (text : String) : Except Error Members :=
  if isBlank text.toList then .ok []
  else
    match Json.readDocument text.toList with
    | .error e => .error (.json e)
    | .ok (.obj ms) => .ok (settingsOf ms)
    | .ok v => .error (.invalidShape key (.notObject file v.kind))

/-- The settings in a file. A missing file has none. -/
def load (file : Path) (key : String) (fs : FileSystem) : Except Error Members :=
  match fs.readText file with
  | .ok text => parse file key text
  | .error .notFound => .ok []
  | .error fault => .error (.io fault)

/-- What loading reports. -/
def loadEvents (file : Path) (fs : FileSystem) : List Event :=
  match fs.readText file with
  | .error .notFound => [.fileMissing file]
  | _ => []

/-! ## Writing -/

/-- The text of a settings file. -/
def document (settings : Members) : String := Json.toLines (.obj settings) ++ "\n"

/-- The calls that the system may refuse whatever the file system looks like. -/
structure Refusals where
  create : Option Fault
  write : Option Fault
  sync : Option Fault
  rename : Option Fault

/-- A system that refuses nothing without need. -/
def Refusals.none : Refusals := ⟨.none, .none, .none, .none⟩

/-- A file that is to replace the settings file. -/
structure Temporary where
  location : Location
  node : Nat
deriving DecidableEq, Repr

/-- What a call to the system gives, and the file system behind it. -/
abbrev Step (α : Type) := Except Fault α × FileSystem

/-- Fails if the system refuses the call. -/
def refusing {α : Type} (refusal : Option Fault) (fs : FileSystem) (step : Step α) : Step α :=
  match refusal with
  | some fault => (.error fault, fs)
  | .none => step

/-- Makes the directories above the file and gives the one that is to hold it. -/
def makeParents (file : Path) (fs : FileSystem) : Step Location :=
  let dir : Path := file.directory?.getD Path.dot
  match (if file.directory?.isSome then fs.makeDirectories dir else (.ok (), fs)) with
  | (.error fault, made) => (.error fault, made)
  | (.ok (), made) => (made.directory dir, made)

/-- Makes an empty file, private to its owner, under a name that the directory does not have and
that is not the settings file's own. -/
def createTemporary (refusals : Refusals) (file : Path) (dir : Location) (fs : FileSystem) :
    Step Temporary :=
  let location := dir ++ [fs.freshName dir file.names.getLast?]
  refusing refusals.create fs
    (.ok ⟨location, fs.nodes.length⟩, fs.addFile location ⟨.bytes [], FileSystem.privateMode⟩)

/-- Removes the temporary file behind a call that failed. -/
def cleaning {α : Type} (temp : Temporary) : Step α → Step α
  | (.error fault, fs) => (.error fault, fs.removeEntry temp.location)
  | done => done

def writeTemporary (refusals : Refusals) (temp : Temporary) (text : String) (fs : FileSystem) :
    Step Unit :=
  cleaning temp <| refusing refusals.write fs
    (.ok (), fs.setContent temp.node (.bytes (bytesOf text)))

def syncTemporary (refusals : Refusals) (temp : Temporary) (fs : FileSystem) : Step Unit :=
  cleaning temp <| refusing refusals.sync fs (.ok (), fs)

/-- Moves the temporary file over the path. -/
def publish (refusals : Refusals) (temp : Temporary) (file : Path) (fs : FileSystem) : Step Unit :=
  cleaning temp <| refusing refusals.rename fs <|
    match fs.rename temp.location file with
    | .ok moved => (.ok (), moved)
    | .error fault => (.error fault, fs)

/-- Goes on behind a call that succeeded. -/
def Step.andThen {α β : Type} (step : Step α) (next : α → FileSystem → Step β) : Step β :=
  match step with
  | (.ok a, fs) => next a fs
  | (.error fault, fs) => (.error fault, fs)

/-- Writes settings to a file, all steps in a row. -/
def save (refusals : Refusals) (file : Path) (settings : Members) (fs : FileSystem) : Step Unit :=
  (makeParents file fs).andThen fun dir fs =>
  (createTemporary refusals file dir fs).andThen fun temp fs =>
  (writeTemporary refusals temp (document settings) fs).andThen fun () fs =>
  (syncTemporary refusals temp fs).andThen fun () fs =>
  publish refusals temp file fs

/-! ## The store -/

def get (file : Path) (key : String) (fs : FileSystem) : Outcome FileSystem (Option Json) :=
  ⟨(load file key fs).map (Members.find? key), fs, loadEvents file fs⟩

def set (refusals : Refusals) (file : Path) (key : String) (value : Json) (fs : FileSystem) :
    Outcome FileSystem Unit :=
  match load file key fs with
  | .error e => ⟨.error e, fs, loadEvents file fs⟩
  | .ok settings =>
    match save refusals file (settings.upsert key value) fs with
    | (.ok (), saved) => ⟨.ok (), saved, loadEvents file fs ++ [.fileWritten key file]⟩
    | (.error fault, left) => ⟨.error (.io fault), left, loadEvents file fs⟩

/-- The store on a settings file. -/
def store (refusals : Refusals) (file : Path) : Store FileSystem where
  get := get file
  set := set refusals file

end CobolDialects.Settings.File
