import CobolDialects.Path

/-!
# Addresses of databases

A database is named by a path, or by a name that begins with `file:`. Such a name may have an
authority, which has to be this machine, and parameters behind a question mark, which say how the
database is opened; a byte can be written by its two hexadecimal digits behind a percent sign, and
what follows a number sign does not count.
-/

namespace CobolDialects.Database

/-- How the files of a database are locked, or that it has none. -/
inductive System where
  | standard
  | unlocked
  /-- A directory beside the database is the lock. -/
  | lockDirectory
  /-- The whole database is locked as long as it is open. -/
  | exclusive
  | memory
deriving DecidableEq, Repr

def System.name : System → String
  | .standard => "unix"
  | .unlocked => "unix-none"
  | .lockDirectory => "unix-dotfile"
  | .exclusive => "unix-excl"
  | .memory => "memdb"

def System.ofName? (name : Bytes) : Option System :=
  [System.standard, .unlocked, .lockDirectory, .exclusive, .memory].find?
    fun s => bytesOf s.name = name

/-- What may be done with a database. -/
inductive AccessMode where
  | readOnly
  | readWrite
  /-- Reading, writing, and making the file. -/
  | create
  | memory
deriving DecidableEq, Repr

namespace AccessMode

def name : AccessMode → String
  | .readOnly => "ro"
  | .readWrite => "rw"
  | .create => "rwc"
  | .memory => "memory"

def ofName? (name : Bytes) : Option AccessMode :=
  [AccessMode.readOnly, .readWrite, .create, .memory].find? fun m => bytesOf m.name = name

/-- The modes that follow a mode in the same name ask for no more than this allows. -/
def allowance : AccessMode → Nat
  | .readOnly => 1
  | .readWrite => 2
  | .create => 3
  | .memory => 4

/-- What a mode asks for. A database in memory asks for nothing. -/
def demand : AccessMode → Nat
  | .memory => 0
  | m => m.allowance

end AccessMode

/-- Where a database is and how it is to be opened. -/
structure Address where
  /-- The path; none at all for a database that is nowhere. -/
  path : Path
  system : System
  mode : AccessMode
  /-- Whether other connections may have the same database in memory. -/
  shared : Bool
  parameters : List (Bytes × Bytes)
deriving DecidableEq, Repr

namespace Address

/-- How an address can be wrong. -/
inductive Error where
  | authority (found : Bytes)
  | noAccessMode (found : Bytes)
  | noCacheMode (found : Bytes)
  | modeNotAllowed (found : Bytes)
  | noSystem (found : Bytes)
deriving DecidableEq, Repr

def Error.message : Error → String
  | .authority found => s!"invalid uri authority: {shownText found}"
  | .noAccessMode found => s!"no such access mode: {shownText found}"
  | .noCacheMode found => s!"no such cache mode: {shownText found}"
  | .modeNotAllowed found => s!"access mode not allowed: {shownText found}"
  | .noSystem found => s!"no such vfs: {shownText found}"

/-! ## The parts of a name -/

/-- What a name begins with if it is more than a path. -/
def scheme : Bytes := bytesOf "file:"

def hexDigit? (b : UInt8) : Option UInt8 :=
  if 0x30 ≤ b ∧ b ≤ 0x39 then some (b - 0x30)
  else if 0x41 ≤ b ∧ b ≤ 0x46 then some (b - 0x37)
  else if 0x61 ≤ b ∧ b ≤ 0x66 then some (b - 0x57)
  else none

def percent : UInt8 := 0x25

/-- The bytes that a part of a name stands for. It ends where a NUL is written. -/
def decode : Bytes → Bytes
  | [] => []
  | b :: rest =>
    if b = percent then
      match rest with
      | high :: low :: behind =>
        match hexDigit? high, hexDigit? low with
        | some h, some l => if h * 16 + l = 0 then [] else (h * 16 + l) :: decode behind
        | _, _ => b :: decode (high :: low :: behind)
      | short => b :: short
    else b :: decode rest

/-- The bytes in front of a sign, and those behind it. -/
def cut (sign : Char) (bytes : Bytes) : Bytes × Bytes :=
  let b := UInt8.ofNat sign.toNat
  (bytes.takeWhile (· ≠ b), (bytes.dropWhile (· ≠ b)).drop 1)

/-- A parameter: its name and its value. One without a name does not count. -/
def parameter? (bytes : Bytes) : Option (Bytes × Bytes) :=
  let (name, value) := cut '=' bytes
  if decode name = [] then none else some (decode name, decode value)

/-- The parameters that stand behind the question mark. -/
def parametersOf (query : Bytes) : List (Bytes × Bytes) :=
  (splitBytes (UInt8.ofNat '&'.toNat) query).filterMap parameter?

def thisMachine : Bytes := bytesOf "localhost"

/-- What follows the authority, if there is one. -/
def dropAuthority (rest : Bytes) : Except Error Bytes :=
  if [Path.slash, Path.slash].isPrefixOf rest then
    let authority := (rest.drop 2).takeWhile (· ≠ Path.slash)
    if authority = [] ∨ authority = thisMachine then .ok (rest.drop (2 + authority.length))
    else .error (.authority authority)
  else .ok rest

/-! ## Parameters -/

/-- Changes an address as a parameter asks. -/
def applyMode (a : Address) (name value : Bytes) : Except Error Address :=
  if name = bytesOf "cache" then
    if value = bytesOf "shared" then .ok { a with shared := true }
    else if value = bytesOf "private" then .ok { a with shared := false }
    else .error (.noCacheMode value)
  else if name = bytesOf "mode" then
    match AccessMode.ofName? value with
    | none => .error (.noAccessMode value)
    | some m =>
      if a.mode.allowance < m.demand then .error (.modeNotAllowed value)
      else .ok { a with mode := m }
  else .ok a

/-- The address in which all parameters but the one for the system are observed. -/
def applyModes (a : Address) (parameters : List (Bytes × Bytes)) : Except Error Address :=
  parameters.foldlM (fun a (name, value) => a.applyMode name value) a

/-- Chooses the system that the last parameter of that name asks for. -/
def applySystem (a : Address) : Except Error Address :=
  match (a.parameters.reverse.lookup (bytesOf "vfs")) with
  | none => .ok a
  | some name =>
    match System.ofName? name with
    | some system => .ok { a with system }
    | none => .error (.noSystem name)

/-- The address that is nothing but a path. -/
def ofPath (path : Path) : Address := ⟨path, .standard, .create, false, []⟩

/-- Reads the name of a database. -/
def read (name : Bytes) : Except Error Address :=
  if scheme.isPrefixOf name then do
    let rest ← dropAuthority (name.drop scheme.length)
    let (path, query) := cut '?' (cut '#' rest).1
    let parameters := parametersOf query
    let a ← applyModes { ofPath (decode path) with parameters } parameters
    applySystem a
  else .ok (ofPath name)

/-! ## What an address asks for -/

/-- The value of a parameter. -/
def value? (a : Address) (name : String) : Option Bytes := a.parameters.lookup (bytesOf name)

/-- The largest number that a parameter can have. -/
def maxNumber : Nat := 2147483647

/-- Whether a value says yes: by a word, or by a number whose last byte is not zero. -/
def affirms (value : Bytes) : Bool :=
  let text := (shownText value).toList
  let digits := text.takeWhile Char.isDigit
  if digits = [] then
    [['o', 'n'], ['y', 'e', 's'], ['t', 'r', 'u', 'e']].contains (text.map Char.toLower)
  else
    let n := digits.foldl (fun n c => n * 10 + (c.toNat - 48)) 0
    n ≤ maxNumber && n % 256 != 0

/-- Whether a parameter is there and says yes. -/
def isSet (a : Address) (name : String) : Bool := (a.value? name).any affirms

/-- The path of a database in memory. -/
def memoryPath : Path := bytesOf ":memory:"

/-- Whether the database is in memory. -/
def inMemory (a : Address) : Bool := a.path = memoryPath || a.mode = .memory

/-- Whether the database has no files. -/
def isFileless (a : Address) : Bool := a.path = [] || a.inMemory || a.system = .memory

/-- Whether it can be relied on that nobody changes the database. -/
def isImmutable (a : Address) : Bool := a.path ≠ [] && !a.inMemory && a.isSet "immutable"

/-- The name by which other connections find a database that has no files. -/
def sharedName? (a : Address) : Option Bytes :=
  if a.path = [] then none
  else if a.inMemory then if a.shared then some (0 :: a.path) else none
  else if a.system = .memory then
    match a.path with
    | b :: _ :: _ => if b = Path.slash ∨ b = 0x5C then some (1 :: a.path) else none
    | _ => none
  else none

example : (read (bytesOf "file:a%2Fb?mode=ro#c")).toOption =
    some ⟨bytesOf "a/b", .standard, .readOnly, false, [(bytesOf "mode", bytesOf "ro")]⟩ := by
  decide +kernel
example : (read (bytesOf "file://host/a")).toOption = none := by decide +kernel
example : decode (bytesOf "a%00b%2") = bytesOf "a" := by decide +kernel

end Address

end CobolDialects.Database
