import CobolDialects.CommandLine.Basic

/-!
# Reading arguments

Arguments are read from left to right and the first problem wins. A value that stands in an argument
of its own is set aside and looked at only when the next known option or flag, or the end of its
command, is reached: an argument that is not known is a problem of its own and comes before one with
the value set aside. A value behind an equals sign is looked at on the spot.
-/

namespace CobolDialects.CommandLine

/-- What has been read in a scope. -/
structure Progress where
  /-- The values that have been looked at. -/
  values : List (Slot × Bytes)
  json : Bool
  /-- A slot whose value, if it has one yet, has not been looked at. -/
  pending : Option (Slot × Option Bytes)
  /-- Whether the next argument is the value of the pending slot. -/
  awaiting : Bool
  /-- Whether options have been ended by two dashes. -/
  ended : Bool
  /-- How many arguments have been taken in places of their own. -/
  placed : Nat
deriving DecidableEq, Repr

namespace Progress

def start : Progress := ⟨[], false, none, false, false, 0⟩

abbrev Reading (α : Type) := Except Halt α

def refuse {α : Type} (e : UsageError) : Reading α := .error (.usage e)

/-- Whether a slot admits a value. -/
def check (slot : Slot) (value : Bytes) : Reading Unit :=
  match slot with
  | .option .store =>
    if value = bytesOf "json" ∨ value = bytesOf "sqlite" then .ok ()
    else if value = [] then refuse (.missingValue slot)
    else refuse (.invalidStore value)
  | .option .settings => if value = [] then refuse (.missingValue slot) else .ok ()
  | _ => if (textOf? value).isSome then .ok () else refuse .notUtf8

/-- Looks at a value and keeps it. -/
def accept (p : Progress) (slot : Slot) (value : Bytes) : Reading Progress := do
  if p.values.any (·.1 = slot) then refuse (.repeatedOption slot)
  check slot value
  return { p with values := p.values ++ [(slot, value)] }

/-- Looks at what has been set aside. -/
def settle (p : Progress) : Reading Progress :=
  match p.pending with
  | none => .ok p
  | some (slot, none) => refuse (.missingValue slot)
  | some (slot, some value) =>
    ({ p with pending := none, awaiting := false } : Progress).accept slot value

/-- Acts on a flag. -/
def raise (scope : Scope) (p : Progress) : Flag → Reading Progress
  | .help => .error (.help (.scope scope))
  | .version => .error .version
  | .json => if p.json then refuse (.repeatedFlag .json) else .ok { p with json := true }

/-- An argument that starts with two dashes. -/
def long (scope : Scope) (p : Progress) (body : Bytes) : Reading Progress :=
  let equals : UInt8 := 0x3D
  let name := body.takeWhile (· ≠ equals)
  let attached := (body.dropWhile (· ≠ equals)).tail
  let hasValue := body.contains equals
  match scope.options.find? fun o => bytesOf o.long = name with
  | some o =>
    p.settle.bind fun p =>
      if hasValue then p.accept (.option o) attached
      else .ok { p with pending := some (.option o, none), awaiting := true }
  | none =>
    match scope.flags.find? fun f => bytesOf f.long = name with
    | some f =>
      if hasValue then refuse (.unexpectedValue attached f)
      else p.settle.bind fun p => p.raise scope f
    | none => refuse (.unexpectedArgument (bytesOf "--" ++ name))

/-- An argument that starts with one dash. The first flag in it decides. -/
def short (scope : Scope) (p : Progress) (body : Bytes) : Reading Progress :=
  match Utf8.pieces body with
  | .char 'h' :: _ => p.settle.bind fun p => p.raise scope .help
  | .char c :: _ =>
    if c = 'V' ∧ scope = .root then p.settle.bind fun p => p.raise scope .version
    else refuse (.unexpectedArgument (bytesOf (String.ofList ['-', c])))
  | _ => refuse (.unexpectedArgument (bytesOf "-" ++ body))

/-- How an argument looks where options are still admitted. -/
inductive Form where
  | ender
  | long (body : Bytes)
  | short (body : Bytes)
  | plain

def formOf : Bytes → Form
  | [0x2D, 0x2D] => .ender
  | 0x2D :: 0x2D :: body => .long body
  | 0x2D :: b :: body => .short (b :: body)
  | _ => .plain

/-- An argument that no option or flag accounts for. -/
def place (scope : Scope) (p : Progress) (arg : Bytes) : Reading Progress :=
  if scope = .show ∧ p.placed = 0 then
    p.settle.map fun p => { p with pending := some (.shownName, some arg), placed := 1 }
  else refuse (.unexpectedArgument arg)

/-- Reads one argument. -/
def step (scope : Scope) (p : Progress) (arg : Bytes) : Reading Progress :=
  let plain :=
    if p.awaiting ∧ !p.ended then
      .ok { p with pending := p.pending.map fun (slot, _) => (slot, some arg), awaiting := false }
    else p.place scope arg
  if p.ended then plain
  else
    match formOf arg with
    | .ender => .ok { p with ended := true }
    | .long body => p.long scope body
    | .short body => p.short scope body
    | .plain => plain

/-- What the required slots are short of. -/
def missing (scope : Scope) (p : Progress) : List Slot :=
  scope.required.filter fun slot => !p.values.any (·.1 = slot)

/-- Reads the arguments of a command to their end. -/
def readCommand (scope : Scope) : Progress → List Bytes → Reading Progress
  | p, [] =>
    p.settle.bind fun p =>
      if p.missing scope = [] then .ok p else refuse (.missingRequired (p.missing scope))
  | p, arg :: args => (p.step scope arg).bind fun p => readCommand scope p args

/-- The text of a slot. -/
def text? (p : Progress) (slot : Slot) : Option String := (p.values.lookup slot).bind textOf?

/-- The command that its arguments stand for. -/
def command (p : Progress) : Scope → Command
  | .list | .root => .list p.json
  | .show => .show ((p.text? .shownName).getD "")
  | .register =>
    let value (o : Opt) := (p.text? (.option o)).getD ""
    .register (value .name) (value .path) (value .description) (value .owner)
  | .paths => .paths

/-- What options and a command ask for. -/
def invocation (p : Progress) (c : Command) : Invocation where
  backend := if p.values.lookup (.option .store) = some (bytesOf "sqlite") then .sqlite else .json
  settings := p.values.lookup (.option .settings)
  key := (p.text? (.option .key)).getD Locations.registryKey
  logLevel := (p.text? (.option .logLevel)).getD Locations.defaultLogLevel
  command := c

/-- The topic that help is asked about. -/
def topic : List Bytes → Reading Topic
  | [] => .ok (.scope .root)
  | name :: more =>
    let found : Option Topic :=
      if name = bytesOf "help" then some .help else (Scope.ofName? name).map .scope
    match found, more with
    | none, _ => refuse (.unknownCommand name)
    | some t, [] => .ok t
    | some _, extra :: _ => refuse (.unknownCommand extra)

/-- A name that stands for a command. -/
def isCommand (arg : Bytes) : Bool := arg = bytesOf "help" || (Scope.ofName? arg).isSome

/-- Reads options up to the command, and the command with them. -/
def readRoot : Progress → List Bytes → Reading Invocation
  | p, [] =>
    p.settle.bind fun p => refuse (if p.values = [] then .noArguments else .missingCommand)
  | p, arg :: args =>
    if !p.ended && !p.awaiting && isCommand arg then
      match Scope.ofName? arg with
      | none => (topic args).bind fun t => .error (.help t)
      | some scope =>
        (readCommand scope start args).bind fun c =>
          p.settle.map fun p => p.invocation (c.command scope)
    else if p.ended ∨ (formOf arg matches .plain ∧ !p.awaiting) then
      refuse (if isCommand arg then .unexpectedArgument arg else .unknownCommand arg)
    else (p.step .root arg).bind fun p => readRoot p args

end Progress

/-- What arguments ask for. -/
def readArguments (args : List Bytes) : Except Halt Invocation := Progress.start.readRoot args

end CobolDialects.CommandLine
