import CobolDialects.Database.Log

/-!
# File systems

A file system is a flat table from locations to directory entries, beside a list of file nodes, so
that hard links are two locations with one node. Nodes are only ever added, and a node that no
location names any more keeps its content for whoever has it open.

Paths are looked up one name at a time from a directory. A symbolic link on the way continues with
the names of its target, at most `maxLinks` times in one look-up; the last name is followed only on
demand. A slash behind the last name asks for a directory, which a look-up goes into; a call that
would make a file of that name is refused as soon as it comes to the name.
-/

namespace CobolDialects

/-- The names that lead from the root of the tree to an entry. -/
abbrev Location := List Name

/-- What a file holds. -/
inductive Content where
  | bytes (bytes : Bytes)
  | database (db : Database)
  /-- The log of a database. -/
  | log (log : Database.Log)
  /-- The index of a log, which leads to a number of its changes. -/
  | logIndex (reach : Nat)
deriving DecidableEq, Repr

/-- The first bytes of every database file; those behind them are not text. -/
def databaseHeader : Bytes := bytesOf "SQLite format 3" ++ [0, 0xFF]

/-- The first bytes of every log. -/
def logHeader : Bytes := [0x37, 0x7F, 0x06, 0x82]

/-- The first bytes of the index of every log. -/
def logIndexHeader : Bytes := [0x18, 0xE2, 0x2D, 0x00]

/-- What a reader of the whole file sees: of a file that is kept by an engine only its first bytes
are told. -/
def Content.shown : Content → Bytes
  | .bytes b => b
  | .database _ => databaseHeader
  | .log _ => logHeader
  | .logIndex _ => logIndexHeader

/-- A file: its content and its permission bits. -/
structure Node where
  content : Content
  mode : Nat
deriving DecidableEq, Repr

inductive Entry where
  | directory
  | file (node : Nat)
  | link (target : Path)
deriving DecidableEq, Repr

/-- Why the system refuses a call. -/
inductive Fault where
  | notPermitted | notFound | busy | alreadyExists | notDirectory | isDirectory | invalid
  | nameTooLong | notEmpty | tooManyLinks
  | nulByte
  /-- The bytes of a file are not text. -/
  | notText
  /-- Any other refusal, in the system's words. -/
  | other (text : String)
deriving DecidableEq, Repr

def Fault.message : Fault → String
  | .notPermitted => "Operation not permitted (os error 1)"
  | .notFound => "No such file or directory (os error 2)"
  | .busy => "Device or resource busy (os error 16)"
  | .alreadyExists => "File exists (os error 17)"
  | .notDirectory => "Not a directory (os error 20)"
  | .isDirectory => "Is a directory (os error 21)"
  | .invalid => "Invalid argument (os error 22)"
  | .nameTooLong => "File name too long (os error 36)"
  | .notEmpty => "Directory not empty (os error 39)"
  | .tooManyLinks => "Too many levels of symbolic links (os error 40)"
  | .nulByte => "file name contained an unexpected NUL byte"
  | .notText => "stream did not contain valid UTF-8"
  | .other text => text

structure FileSystem where
  entries : List (Location × Entry)
  nodes : List Node
  /-- Where relative paths start. -/
  working : Location
deriving DecidableEq, Repr

/-- Where a path leads: to an entry, or to a name that a directory does not have. -/
inductive Place where
  | found (location : Location) (entry : Entry)
  | vacant (directory : Location) (name : Name)
deriving DecidableEq, Repr

/-- The length of the longest name. -/
def maxNameLength : Nat := 255

/-- The length that every path stays below. -/
def pathLengthLimit : Nat := 4096

/-- How many symbolic links one look-up follows. -/
def maxLinks : Nat := 40

/-- The names to look up: a trailing slash asks for a directory, as a final dot does. -/
def Path.steps (p : Path) : List Name :=
  if p.endsInSlash then p.names ++ [Path.dot] else p.names

/-- What stands for the trailing slash of the path of a file that is to be made. -/
def trailingSlash : Name := []

/-- The names to look up on the way to a file that is to be made. -/
def Path.makingSteps (p : Path) : List Name :=
  if p.endsInSlash then p.names ++ [trailingSlash] else p.names

namespace FileSystem

/-- A tree that holds nothing. -/
def empty : FileSystem := ⟨[], [], []⟩

/-- The entry at a location. The root is always a directory. -/
def entry? (fs : FileSystem) (at_ : Location) : Option Entry :=
  if at_ = [] then some .directory else fs.entries.lookup at_

def node? (fs : FileSystem) (n : Nat) : Option Node := fs.nodes[n]?

/-- Where a path starts. -/
def start (fs : FileSystem) (p : Path) : Location := if p.isAbsolute then [] else fs.working

/-- Looks up names from a directory. A link on the way, or at the end if it is to be followed, is
handed on with the directory that holds it and the names behind it. -/
def walk (fs : FileSystem) (follow : Bool)
    (jump : Location → Path → List Name → Except Fault Place) :
    Location → List Name → Except Fault Place
  | here, [] => .ok (.found here .directory)
  | here, name :: rest =>
    if name = Path.dot ∨ name = trailingSlash then walk fs follow jump here rest
    else if name = Path.dotDot then walk fs follow jump here.dropLast rest
    else if rest = [trailingSlash] then .error .isDirectory
    else if maxNameLength < name.length then .error .nameTooLong
    else
      match fs.entry? (here ++ [name]) with
      | none => if rest = [] then .ok (.vacant here name) else .error .notFound
      | some .directory => walk fs follow jump (here ++ [name]) rest
      | some (.file n) =>
        if rest = [] then .ok (.found (here ++ [name]) (.file n)) else .error .notDirectory
      | some (.link target) =>
        if rest = [] ∧ follow = false then .ok (.found (here ++ [name]) (.link target))
        else jump here target rest

/-- Looks up names, following a number of links, each by the names that its target stands for. -/
def walkLinks (fs : FileSystem) (steps : Path → List Name) (follow : Bool) :
    Nat → Location → List Name → Except Fault Place
  | 0 => fs.walk follow fun _ _ _ => .error .tooManyLinks
  | links + 1 => fs.walk follow fun here target rest =>
    walkLinks fs steps follow links (if target.isAbsolute then [] else here) (steps target ++ rest)

/-- Refuses what cannot be handed to the system. -/
def checkNul (p : Path) : Except Fault Unit := if p.contains 0 then .error .nulByte else .ok ()

/-- Refuses what is no path at all. -/
def checkPath (p : Path) : Except Fault Unit :=
  if p.contains 0 then .error .nulByte
  else if pathLengthLimit ≤ p.length then .error .nameTooLong
  else if p = [] then .error .notFound
  else .ok ()

/-- Where a path leads. -/
def lookup (fs : FileSystem) (follow : Bool) (p : Path) : Except Fault Place := do
  checkPath p
  fs.walkLinks Path.steps follow maxLinks (fs.start p) p.steps

/-- Where a path leads if there is something. -/
def find (fs : FileSystem) (follow : Bool) (p : Path) : Except Fault (Location × Entry) :=
  match fs.lookup follow p with
  | .error e => .error e
  | .ok (.vacant _ _) => .error .notFound
  | .ok (.found location entry) => .ok (location, entry)

/-- Whether a path leads to a directory. -/
def isDirectory (fs : FileSystem) (p : Path) : Bool :=
  match fs.find true p with
  | .ok (_, .directory) => true
  | _ => false

/-- The directory that a path leads to. -/
def directory (fs : FileSystem) (p : Path) : Except Fault Location :=
  match fs.find true p with
  | .error e => .error e
  | .ok (location, .directory) => .ok location
  | .ok _ => .error .notDirectory

/-- The file node that a path leads to. -/
def fileNode (fs : FileSystem) (p : Path) : Except Fault Nat :=
  match fs.find true p with
  | .error e => .error e
  | .ok (_, .file n) => .ok n
  | .ok _ => .error .isDirectory

/-- What a node shows to a reader. -/
def contentOf (fs : FileSystem) (n : Nat) : Bytes := ((fs.node? n).map (·.content.shown)).getD []

/-- The bytes of a file. -/
def read (fs : FileSystem) (p : Path) : Except Fault Bytes := (fs.fileNode p).map fs.contentOf

/-- The text of a file. -/
def readText (fs : FileSystem) (p : Path) : Except Fault String :=
  match fs.read p with
  | .error e => .error e
  | .ok bytes =>
    match textOf? bytes with
    | some text => .ok text
    | none => .error .notText

end FileSystem

end CobolDialects
