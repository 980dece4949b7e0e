import CobolDialects.Text.Utf8

/-!
# Texts without control sequences

What is left of a text when the control sequences of a terminal are taken out, so that it can go to
a file. Characters that show and line breaks stay. A sequence starts with an escape character and
goes on to its own end, however far that is; white space inside one is kept, and so is what stands
behind it up to the next control character, with which the sequence goes on.
-/

namespace CobolDialects.Terminal

/-- How far a sequence has been read that can be interrupted. -/
inductive Sequence where
  /-- Behind the escape character. -/
  | start
  /-- Behind a sign that announces one more character. -/
  | extended
  /-- Among the numbers of a control function. -/
  | parameters
deriving DecidableEq, Repr

/-- Where in a text or in a sequence a character stands. -/
inductive State where
  | plain
  | inside (s : Sequence)
  /-- In text that interrupts a sequence. -/
  | interrupting (s : Sequence)
  /-- At the start of a device control string. -/
  | deviceStart
  | deviceParameters
  | deviceIntermediate
  /-- In a string that only the string terminator or another sequence ends. -/
  | string
  /-- In a command for the system, which the bell ends as well. -/
  | command
deriving DecidableEq, Repr

def escape : Char := '\x1b'

/-- The bell. -/
def bell : Char := '\x07'

/-- Whether a control character moves the place of printing and nothing else. -/
def isBreak (c : Char) : Bool := c = '\t' || c = '\n' || c = '\x0c' || c = '\r'

/-- Whether a character between two ASCII characters, both included. -/
def within (low high c : Char) : Bool := low ≤ c && c ≤ high

/-- The byte that ends a string. -/
def terminator : UInt8 := 0x9C

/-- The state behind a character of a sequence, and whether the character is kept. -/
def Sequence.step (s : Sequence) (c : Char) : State × Bool :=
  if isBreak c then (.interrupting s, true)
  else
    match s with
    | .start =>
      if within ' ' '/' c then (.inside .extended, false)
      else if c = '[' then (.inside .parameters, false)
      else if c = 'P' then (.deviceStart, false)
      else if c = ']' then (.command, false)
      else if c = 'X' ∨ c = '^' ∨ c = '_' then (.string, false)
      else if within '0' '~' c then (.plain, false)
      else (.inside .start, false)
    | .extended => (if within '0' '~' c then .plain else .inside .extended, false)
    | .parameters => (if within '@' '~' c then .plain else .inside .parameters, false)

/-- The state behind a character, and whether the character is kept. -/
def State.step (s : State) (c : Char) : State × Bool :=
  if c = escape then (.inside .start, false)
  else if c = '\x18' ∨ c = '\x1a' then (.plain, false)
  else
    match s with
    | .plain => (.plain, isBreak c || (' ' ≤ c && c ≠ '\x7f'))
    | .inside q => q.step c
    | .interrupting q =>
      if '\x7f' < c then (.plain, true)
      else if isBreak c || within ' ' '~' c then (.interrupting q, true)
      else (.inside q, false)
    | .deviceStart =>
      if within ' ' '/' c then (.deviceIntermediate, false)
      else if within '0' '?' c then (.deviceParameters, false)
      else (if within '@' '~' c then .string else .deviceStart, false)
    | .deviceParameters =>
      if within ' ' '/' c then (.deviceIntermediate, false)
      else (if within '<' '~' c then .string else .deviceParameters, false)
    | .deviceIntermediate => (if within '0' '~' c then .string else .deviceIntermediate, false)
    | .string => (if (bytesOf c.toString).contains terminator then .plain else .string, false)
    | .command => (if c = bell then .plain else .command, false)

/-- The characters that are kept from a state on. -/
def keptFrom : State → List Char → List Char
  | _, [] => []
  | s, c :: r =>
    let (next, kept) := s.step c
    if kept then c :: keptFrom next r else keptFrom next r

/-- A text without its control sequences. -/
def kept (text : String) : String := String.ofList (keptFrom .plain text.toList)

/-- A text in a colour, and the colour reset behind it. -/
def coloured (text : String) : String :=
  let start := String.ofList [escape, '[']
  start ++ "33m" ++ text ++ start ++ "0m"

example : kept (coloured "ab") = "ab" := by cbv
example : kept (coloured "a\x1b[" ++ "b") = "ab" := by cbv
example : kept "\x1bPq\x1b\\z\x07" = "z" := by cbv

end CobolDialects.Terminal
