import CobolDialects.FileSystem.Change

/-!
# Files beside a file

An engine names the files beside that of a database by its location and an ending. Opening one of
them does not follow a link, and an empty file takes on the mode that is asked for.
-/

namespace CobolDialects

/-- The location whose last name is longer by an ending. -/
def Location.beside (at_ : Location) (ending : String) : Location :=
  at_.dropLast ++ [at_.getLast?.getD [] ++ bytesOf ending]

/-- A location as a path. -/
def Location.path (at_ : Location) : Path := Path.ofComponents true at_

namespace FileSystem

/-- The bits of a mode that say who may read, write and run a file. -/
def permissions (mode : Nat) : Nat := mode % 0o1000

/-- The mode of a directory. -/
def directoryMode : Nat := 0o755

/-- The permissions of what is at a path. -/
def permissionsAt? (fs : FileSystem) (p : Path) : Option Nat :=
  match fs.find true p with
  | .ok (_, .file n) => (fs.node? n).map fun node => permissions node.mode
  | .ok _ => some directoryMode
  | .error _ => none

/-- Whether there is anything at a location: a directory, or a file that is not empty. -/
def isOccupied (fs : FileSystem) (at_ : Location) : Bool :=
  match fs.find true at_.path with
  | .ok (_, .file n) => fs.contentOf n ≠ []
  | .ok _ => true
  | .error _ => false

/-- Whether a location leads to the file of a node. -/
def leadsTo (fs : FileSystem) (at_ : Location) (n : Nat) : Bool :=
  match fs.find true at_.path with
  | .ok (_, .file m) => m = n
  | _ => false

/-- Opens a file at a location, making it, on demand, if it is missing. If a mode other than zero is
given, a new file has it and one that is empty takes it on. -/
def openAt? (fs : FileSystem) (at_ : Location) (make : Bool) (mode : Nat) :
    Option (Nat × FileSystem) :=
  match fs.lookup false at_.path with
  | .ok (.found _ (.file n)) =>
    some (n, if mode ≠ 0 ∧ fs.contentOf n = [] then fs.setMode n mode else fs)
  | .ok (.vacant _ _) =>
    if make then
      some (fs.nodes.length,
        fs.addFile at_ ⟨.bytes [], if mode = 0 then publicMode else mode⟩)
    else none
  | _ => none

/-- Removes what is at a location. A directory stays where it is. -/
def unlink (fs : FileSystem) (at_ : Location) : FileSystem :=
  match fs.entry? at_ with
  | some .directory => fs
  | _ => fs.removeEntry at_

end FileSystem

end CobolDialects
