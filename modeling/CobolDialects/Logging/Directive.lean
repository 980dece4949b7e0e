import CobolDialects.Logging.Grammar
import CobolDialects.Text.Alphanumeric

/-!
# Directives of targets and levels

A directive sets a threshold for the events of one part of the program or of all parts. It is told
apart by the characters between the white space around it, but its parts are cut out of the text
with that white space, at the same distances from the start. Directives that name spans or fields as
well, in brackets in front of their level, are no part of this grammar: here they are not
understood.
-/

namespace CobolDialects

/-- Which events are let through: none, or those of a level and the more urgent ones. -/
inductive Threshold where
  | off
  | upTo (level : Level)
deriving DecidableEq, Repr

namespace Threshold

def rank : Threshold → Nat
  | .off => 0
  | .upTo level => level.rank

def name : Threshold → String
  | .off => "off"
  | .upTo .error => "error"
  | .upTo .warn => "warn"
  | .upTo .info => "info"
  | .upTo .debug => "debug"
  | .upTo .trace => "trace"

/-- The thresholds in the order of their ranks. -/
def all : List Threshold :=
  [.off, .upTo .error, .upTo .warn, .upTo .info, .upTo .debug, .upTo .trace]

/-- A number of 64 bits; a plus sign may stand in front. -/
def readNumber (cs : List Char) : Option Nat :=
  let digits := match cs with
    | '+' :: r => r
    | r => r
  if digits ≠ [] ∧ digits.all Char.isDigit then
    let n := digits.foldl (fun n c => n * 10 + (c.toNat - 48)) 0
    if n < 18446744073709551616 then some n else none
  else none

/-- The threshold that a text stands for: its rank, or its name in letters of either case. -/
def ofText (cs : List Char) : Option Threshold :=
  match (readNumber cs).bind (all[·]?) with
  | some t => some t
  | none => all.find? fun t => t.name.toList = cs.map Char.toLower

/-- Whether events of a level are let through. -/
def admits (t : Threshold) (level : Level) : Bool := level.rank ≤ t.rank

end Threshold

/-- A threshold for the parts of the program whose names start with a text, or for all parts. -/
structure Directive where
  target : Option String
  threshold : Threshold
deriving DecidableEq, Repr

namespace Directive

/-- Why a directive is not understood. -/
inductive Fault where
  | directive | level
deriving DecidableEq, Repr

def Fault.message : Fault → String
  | .directive => "invalid filter directive"
  | .level =>
    "error parsing level filter: expected one of " ++
      "\"off\", \"error\", \"warn\", \"info\", \"debug\", \"trace\", or a number 0-5"

/-- The characters before a distance in bytes from the start, and those behind it, unless it lies
inside a character. -/
def cut : Nat → List Char → Option (List Char × List Char)
  | n, [] => if n = 0 then some ([], []) else none
  | n, c :: cs =>
    if n = 0 then some ([], c :: cs)
    else if c.utf8Size ≤ n then (cut (n - c.utf8Size) cs).map fun (a, b) => (c :: a, b)
    else none

/-- A directive may start with a letter, a digit or one of three marks. -/
def isStart (c : Char) : Bool :=
  c = '-' || c = ':' || c = '_' || CharSet.alphanumeric.contains c

/-- A directive that is not understood. -/
def unread (fault : Fault) : LogFilter.Reading Directive := .ignored fault.message

/-- The threshold behind an equals sign; nothing there stands for everything. -/
def readThreshold (target cs : List Char) : LogFilter.Reading Directive :=
  if cs = [] then .ok ⟨some (String.ofList target), .upTo .trace⟩
  else
    match Threshold.ofText cs with
    | some t => .ok ⟨some (String.ofList target), t⟩
    | none => unread .level

/-- Reads one directive. -/
def read (text : List Char) : LogFilter.Reading Directive :=
  match trim text with
  | [] => unread .directive
  | c :: rest =>
    let target := (c :: rest).takeWhile (· ≠ '=')
    if !isStart c || target.contains '[' then unread .directive
    else if (c :: rest).contains '=' then
      match cut (Utf8.size target) text with
      | none => .broken
      | some (target, behind) =>
        match cut 1 behind with
        | none => .broken
        | some (_, level) => readThreshold target level
    else
      match Threshold.ofText text with
      | some t => .ok ⟨none, t⟩
      | none => .ok ⟨some (String.ofList text), .upTo .trace⟩

/-- The text of a directive. -/
def text (d : Directive) : String :=
  match d.target with
  | some target => s!"{target}={d.threshold.name}"
  | none => d.threshold.name

/-- Whether a directive is about a part of the program. -/
def covers (d : Directive) (target : String) : Bool :=
  match d.target with
  | some start => start.toList.isPrefixOf target.toList
  | none => true

/-- Whether a directive goes before another: longer targets do, then those that come later in the
order of texts, and one without a target comes last. -/
def before (a b : Option String) : Bool :=
  match a, b with
  | some a, some b =>
    b.utf8ByteSize < a.utf8ByteSize || (a.utf8ByteSize = b.utf8ByteSize && textBefore b a)
  | some _, none => true
  | none, _ => false

end Directive

/-- Directives in the order in which they are tried, no two for one target. -/
abbrev LogFilter := List Directive

namespace LogFilter

/-- Puts a directive in its place, where it replaces one of the same target. -/
def insert (d : Directive) : LogFilter → LogFilter
  | [] => [d]
  | e :: rest =>
    if d.target = e.target then d :: rest
    else if Directive.before d.target e.target then d :: e :: rest
    else e :: insert d rest

def ofDirectives (ds : List Directive) : LogFilter := ds.foldl (fun f d => insert d f) []

/-- The text of a filter. -/
def text (f : LogFilter) : String := ",".intercalate (f.map Directive.text)

/-- Whether an event is let through: the first directive that covers its target decides. -/
def admits (f : LogFilter) (e : Event) : Bool :=
  match f.find? (·.covers e.target) with
  | some d => d.threshold.admits e.level
  | none => false

/-- The grammar of targets and levels. Of a text of which nothing is understood it makes a filter
for errors only. -/
def Grammar.targets : Grammar Directive LogFilter where
  read := Directive.read
  make := ofDirectives
  fallback := [⟨none, .upTo .error⟩]
  admits := LogFilter.admits

end LogFilter

end CobolDialects
