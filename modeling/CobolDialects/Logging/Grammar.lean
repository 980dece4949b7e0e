import CobolDialects.Settings.Event
import CobolDialects.Text.Utf8

/-!
# Filters of a log

A filter is written as directives with commas between them. How a directive is written, which filter
directives make and which events that lets through is told by a grammar. The filter in use is that
of a variable, if each of its directives is understood, or else that of a level, of which the
directives that are not understood are left out.
-/

namespace CobolDialects.LogFilter

/-- What comes of reading a directive: it is understood, or it is not for a reason, or reading
breaks off. -/
inductive Reading (δ : Type) where
  | ok (d : δ)
  | ignored (why : String)
  | broken
deriving DecidableEq, Repr

/-- How directives are written, the filters that they make, and which events these let through. -/
structure Grammar (δ φ : Type) where
  read : List Char → Reading δ
  make : List δ → φ
  /-- The filter of a text of which nothing is understood. -/
  fallback : φ
  admits : φ → Event → Bool

/-- Why a text is not taken as a filter. -/
inductive Failure where
  | ignored | broken
deriving DecidableEq, Repr

/-- A filter, and what is said about the pieces that were left out of it. -/
structure Choice (φ : Type) where
  filter : φ
  remarks : List String
deriving DecidableEq, Repr

/-! ## The pieces of a text -/

/-- The pieces of a text between commas. -/
def splitCommas : List Char → List (List Char)
  | [] => [[]]
  | c :: cs =>
    if c = ',' then [] :: splitCommas cs
    else
      match splitCommas cs with
      | [] => [[c]]
      | piece :: pieces => (c :: piece) :: pieces

/-- The directives of a text as they are written. -/
def pieces (text : String) : List (List Char) := (splitCommas text.toList).filter (· ≠ [])

namespace Grammar

variable {δ φ : Type} (g : Grammar δ φ)

/-- The directives of a text all of whose pieces are understood. -/
def readAll : List (List Char) → Except Failure (List δ)
  | [] => .ok []
  | p :: ps =>
    match g.read p with
    | .ok d => (readAll ps).map (d :: ·)
    | .ignored _ => .error .ignored
    | .broken => .error .broken

/-- The directives among the pieces of a text, and what is said about the others. -/
def readSome : List (List Char) → Except Failure (List δ × List String)
  | [] => .ok ([], [])
  | p :: ps =>
    match g.read p with
    | .ok d => (readSome ps).map fun (ds, said) => (d :: ds, said)
    | .ignored why => (readSome ps).map fun (ds, said) =>
      (ds, s!"ignoring `{String.ofList p}`: {why}" :: said)
    | .broken => .error .broken

/-- The filter of the directives that are understood, if there are any. -/
def makeSome : List δ → φ
  | [] => g.fallback
  | d :: ds => g.make (d :: ds)

/-! ## The filter in use -/

/-- The filter of a text that must be understood as a whole. -/
def strict (text : String) : Except Failure (Choice φ) :=
  (g.readAll (pieces text)).map fun ds => ⟨g.make ds, []⟩

/-- The filter of whatever is understood of a text. -/
def lenient (text : String) : Except Failure (Choice φ) :=
  (g.readSome (pieces text)).map fun (ds, remarks) => ⟨g.makeSome ds, remarks⟩

/-- The filter in use: that of the variable if it is understood as a whole, else that of the level
passed in. -/
def select (variableText : Option Bytes) (level : String) : Except Failure (Choice φ) :=
  match variableText.bind textOf? with
  | none => g.lenient level
  | some text =>
    match g.strict text with
    | .error .ignored => g.lenient level
    | outcome => outcome

end Grammar

end CobolDialects.LogFilter
