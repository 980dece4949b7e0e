import CobolDialects.FileSystem.Basic

/-!
# Changing a file system

Each operation gives the new file system or the fault for which it left everything as it was, but
for two that consist of many calls: the directories of a chain that have been made are kept, and
what has been removed of a directory is gone.
-/

namespace CobolDialects.FileSystem

/-- The mode of a file that anyone may read. -/
def publicMode : Nat := 0o644

/-- The mode of a file that only its owner may read. -/
def privateMode : Nat := 0o600

/-! ## Entries and nodes -/

def setEntry (fs : FileSystem) (at_ : Location) (entry : Entry) : FileSystem :=
  { fs with entries := fs.entries.filter (·.1 ≠ at_) ++ [(at_, entry)] }

def removeEntry (fs : FileSystem) (at_ : Location) : FileSystem :=
  { fs with entries := fs.entries.filter (·.1 ≠ at_) }

/-- Adds a file that no location names yet. -/
def addNode (fs : FileSystem) (node : Node) : FileSystem := { fs with nodes := fs.nodes ++ [node] }

/-- Adds a file at a location. Its node is the next one. -/
def addFile (fs : FileSystem) (at_ : Location) (node : Node) : FileSystem :=
  (fs.addNode node).setEntry at_ (.file fs.nodes.length)

def setContent (fs : FileSystem) (n : Nat) (content : Content) : FileSystem :=
  { fs with nodes := fs.nodes.modify n fun node => { node with content } }

def setMode (fs : FileSystem) (n : Nat) (mode : Nat) : FileSystem :=
  { fs with nodes := fs.nodes.modify n fun node => { node with mode } }

/-- Adds bytes at the end of a file, unless an engine keeps it. -/
def appendContent (fs : FileSystem) (n : Nat) (bytes : Bytes) : FileSystem :=
  { fs with nodes := fs.nodes.modify n fun node =>
      match node.content with
      | .bytes old => { node with content := .bytes (old ++ bytes) }
      | _ => node }

/-! ## Directories -/

/-- Where a new entry of a path would stand, its own name not followed. -/
def site (fs : FileSystem) (p : Path) : Except Fault Place := do
  checkPath p
  fs.walkLinks Path.steps false maxLinks (fs.start p) p.names

/-- Makes one directory. -/
def makeDirectory (fs : FileSystem) (p : Path) : Except Fault FileSystem :=
  match fs.site p with
  | .error e => .error e
  | .ok (.found _ _) => .error .alreadyExists
  | .ok (.vacant dir name) => .ok (fs.setEntry (dir ++ [name]) .directory)

/-- Makes the first path a directory, and the ones behind it before that if they are missing. -/
def makeChain (fs : FileSystem) : List Path → Except Fault Unit × FileSystem
  | [] => (.ok (), fs)
  | p :: shorter =>
    match fs.makeDirectory p with
    | .ok made => (.ok (), made)
    | .error .notFound =>
      match fs.makeChain shorter with
      | (.error e, above) => (.error e, above)
      | (.ok (), above) =>
        match above.makeDirectory p with
        | .ok made => (.ok (), made)
        | .error e => if above.isDirectory p then (.ok (), above) else (.error e, above)
    | .error e => if fs.isDirectory p then (.ok (), fs) else (.error e, fs)

/-- The paths that some components, the last one first, lead to one after the other. -/
def ancestors (absolute : Bool) : List Name → List Path
  | [] => []
  | c :: above => Path.ofComponents absolute (c :: above).reverse :: ancestors absolute above

/-- A path and the directories above it, the longest first. -/
def chain (p : Path) : List Path := p :: ancestors p.isAbsolute p.components.reverse.tail

example : chain (bytesOf "a/b//c/") = [bytesOf "a/b//c/", bytesOf "a/b", bytesOf "a"] := by
  decide +kernel

/-- Makes a directory and all that are missing above it. -/
def makeDirectories (fs : FileSystem) (p : Path) : Except Fault Unit × FileSystem :=
  if p = [] then (.ok (), fs) else fs.makeChain (chain p)

/-! ## Files -/

/-- Opens a file for writing, making it if it is missing. -/
def openFile (fs : FileSystem) (p : Path) : Except Fault (Nat × FileSystem) :=
  match checkPath p, fs.walkLinks Path.makingSteps true maxLinks (fs.start p) p.makingSteps with
  | .error e, _ | _, .error e => .error e
  | _, .ok (.found _ (.file n)) => .ok (n, fs)
  | _, .ok (.found _ _) => .error .isDirectory
  | _, .ok (.vacant dir name) =>
    .ok (fs.nodes.length, fs.addFile (dir ++ [name]) ⟨.bytes [], publicMode⟩)

/-- Replaces what a file holds. -/
def writeFile (fs : FileSystem) (p : Path) (bytes : Bytes) : Except Fault FileSystem :=
  (fs.openFile p).map fun (n, opened) => opened.setContent n (.bytes bytes)

def temporaryName (n : Nat) : Name := bytesOf s!".tmp{n}"

/-- A name that a directory does not have, other than one that is to be left free. -/
def freshName (fs : FileSystem) (dir : Location) (reserved : Option Name) : Name :=
  (((List.range (fs.entries.length + 2)).map temporaryName).find?
    fun name => fs.entry? (dir ++ [name]) = none ∧ reserved ≠ some name).getD (temporaryName 0)

/-- Moves a file to a path in place of what is there, unless that is a directory. -/
def rename (fs : FileSystem) (source : Location) (p : Path) : Except Fault FileSystem :=
  match checkPath p, p.names.getLast? with
  | .error e, _ => .error e
  | .ok (), none => .error .busy
  | .ok (), some name =>
    match fs.walkLinks Path.steps true maxLinks (fs.start p) p.names.dropLast with
    | .error e => .error e
    | .ok (.vacant _ _) => .error .notFound
    | .ok (.found _ (.file _)) | .ok (.found _ (.link _)) => .error .notDirectory
    | .ok (.found dir .directory) =>
      if name = Path.dot ∨ name = Path.dotDot then .error .busy
      else if maxNameLength < name.length then .error .nameTooLong
      else if p.endsInSlash then .error .notDirectory
      else
        match fs.entry? source, fs.entry? (dir ++ [name]) with
        | none, _ => .error .notFound
        | some _, some .directory => .error .isDirectory
        | some moved, _ => .ok ((fs.removeEntry source).setEntry (dir ++ [name]) moved)

/-! ## Removing, linking, permissions -/

/-- Takes everything out of a directory. -/
def clear (fs : FileSystem) (dir : Location) : FileSystem :=
  { fs with entries := fs.entries.filter fun e => e.1 = dir ∨ ¬ dir.isPrefixOf e.1 }

/-- Removes an empty directory. -/
def removeDirectory (fs : FileSystem) (p : Path) : Except Fault FileSystem :=
  match fs.walkLinks Path.steps true maxLinks (fs.start p) p.names.dropLast, p.names.getLast? with
  | .error e, _ => .error e
  | _, none => .error .busy
  | .ok (.found dir .directory), some name =>
    if name = Path.dot then .error .invalid
    else if name = Path.dotDot then .error .notEmpty
    else
      match fs.entry? (dir ++ [name]) with
      | none => .error .notFound
      | some .directory => .ok (fs.removeEntry (dir ++ [name]))
      | some _ => .error .notDirectory
  | .ok (.vacant _ _), _ => .error .notFound
  | .ok (.found _ _), _ => .error .notDirectory

/-- Removes an entry; of a directory first all that is in it, which is gone even if the directory
itself cannot be removed by this path. -/
def remove (fs : FileSystem) (p : Path) : Except Fault Unit × FileSystem :=
  match fs.find false p with
  | .error e => (.error e, fs)
  | .ok (location, .directory) =>
    let cleared := fs.clear location
    match cleared.removeDirectory p with
    | .ok removed => (.ok (), removed)
    | .error e => (.error e, cleared)
  | .ok (location, _) => (.ok (), fs.removeEntry location)

/-- Adds an entry that is no directory at a path. -/
def addEntry (fs : FileSystem) (p : Path) (entry : Entry) : Except Fault FileSystem :=
  match fs.site p with
  | .error e => .error e
  | .ok (.found _ _) => .error .alreadyExists
  | .ok (.vacant dir name) =>
    if p.endsInSlash then .error .notFound else .ok (fs.setEntry (dir ++ [name]) entry)

/-- Makes a symbolic link. -/
def makeLink (fs : FileSystem) (p target : Path) : Except Fault FileSystem := do
  checkNul target
  checkNul p
  checkPath target
  fs.addEntry p (.link target)

/-- Gives the file, or the link, at one path a second location. -/
def makeHardLink (fs : FileSystem) (p source : Path) : Except Fault FileSystem := do
  checkNul source
  checkNul p
  match ← fs.find false source with
  | (_, .directory) =>
    let _ ← fs.addEntry p .directory
    .error .notPermitted
  | (_, entry) => fs.addEntry p entry

/-- Changes the permission bits of a file. Those of a directory are not kept. -/
def changeMode (fs : FileSystem) (p : Path) (mode : Nat) : Except Fault FileSystem :=
  match fs.find true p with
  | .error e => .error e
  | .ok (_, .file n) => .ok (fs.setMode n (mode % 0o10000))
  | .ok _ => .ok fs

/-! ## Looking at the tree -/

/-- What is at a path, its last name not followed: the entry, and the mode if it is a file. -/
def stat (fs : FileSystem) (p : Path) : Except Fault (Entry × Option Nat) :=
  match fs.find false p with
  | .error e => .error e
  | .ok (_, .file n) => .ok (.file n, (fs.node? n).map (·.mode))
  | .ok (_, entry) => .ok (entry, none)

/-- A location as a path, marked with a slash if it is a directory. -/
def Entry.shownAt (location : Location) : Entry → Path
  | .directory => Path.ofComponents false location ++ [Path.slash]
  | _ => Path.ofComponents false location

/-- Every path in the tree, each directory right before what it holds and names in the order of
their bytes. -/
def paths (fs : FileSystem) : List Path :=
  (fs.entries.mergeSort fun a b => !precedes nameBefore b.1 a.1).map fun (location, entry) =>
    Entry.shownAt location entry

end CobolDialects.FileSystem
