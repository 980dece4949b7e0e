import CobolDialects.Text.Order

/-!
# Paths

A path is a byte string; a slash separates its components. Joining works on the bytes alone, and
the parent of a path is found among its components, of which empty ones and dots between others do
not count.
-/

namespace CobolDialects

/-- What stands between the places of a separator: one more piece than there are separators. -/
def splitBytes (separator : UInt8) : Bytes → List Bytes
  | [] => [[]]
  | b :: rest =>
    if b = separator then [] :: splitBytes separator rest
    else
      match splitBytes separator rest with
      | [] => [[b]]
      | piece :: pieces => (b :: piece) :: pieces

abbrev Path := Bytes

/-- A component of a path. -/
abbrev Name := Bytes

namespace Path

def slash : UInt8 := 0x2F

def dot : Name := [0x2E]

def dotDot : Name := [0x2E, 0x2E]

def isAbsolute (p : Path) : Bool := p.head? == some slash

/-- The path of `q` as seen from `p`. -/
def join (p q : Path) : Path :=
  if q.isAbsolute then q
  else if p = [] ∨ p.getLast? = some slash then p ++ q
  else p ++ slash :: q

/-- The names between the slashes, dots included. -/
def names (p : Path) : List Name := (splitBytes slash p).filter (· ≠ [])

/-- The names that count: a dot does so only at the front of a relative path. -/
def components (p : Path) : List Name :=
  match p.names with
  | [] => []
  | first :: rest =>
    if first = dot ∧ p.isAbsolute then rest.filter (· ≠ dot) else first :: rest.filter (· ≠ dot)

def ofComponents (absolute : Bool) (cs : List Name) : Path :=
  (if absolute then [slash] else []) ++ [slash].intercalate cs

/-- The path without its last component. -/
def parent? (p : Path) : Option Path :=
  if p.components = [] then none else some (ofComponents p.isAbsolute p.components.dropLast)

/-- The directory that is to hold a file of this path, unless it is the working directory. -/
def directory? (p : Path) : Option Path := p.parent?.filter (· ≠ [])

/-- Whether a path can only name a directory. -/
def endsInSlash (p : Path) : Bool := p.getLast? == some slash

example : parent? (bytesOf "a/./b//s.json") = some (bytesOf "a/b") := by decide +kernel
example : parent? (bytesOf "d/") = some [] := by decide +kernel
example : parent? (bytesOf "./s") = some (bytesOf ".") := by decide +kernel
example : parent? (bytesOf "/") = none := by decide +kernel

end Path

end CobolDialects
