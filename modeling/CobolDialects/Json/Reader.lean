import CobolDialects.Json.Value
import CobolDialects.Text.Utf8

/-!
# Reading JSON

The reader works on what remains of the text. A failure carries its cause and how many bytes are
left behind the place it is reported at; the line and the column follow from the whole text. A
failure at a character that was looked at but not taken is reported behind that character's first
byte.
-/

namespace CobolDialects.Json

/-- Why a text is not JSON. -/
inductive Cause where
  | endInValue | endInList | endInObject | endInString
  | expectedValue | expectedIdent | expectedListEnd | expectedObjectEnd | expectedColon
  | trailingComma | trailingCharacters | keyNotString | tooDeep
  | controlCharacter | invalidEscape | loneSurrogate | unexpectedHexEnd
  | invalidNumber | outOfRange
deriving DecidableEq, Repr

def Cause.message : Cause → String
  | .endInValue => "EOF while parsing a value"
  | .endInList => "EOF while parsing a list"
  | .endInObject => "EOF while parsing an object"
  | .endInString => "EOF while parsing a string"
  | .expectedValue => "expected value"
  | .expectedIdent => "expected ident"
  | .expectedListEnd => "expected `,` or `]`"
  | .expectedObjectEnd => "expected `,` or `\x7d`"
  | .expectedColon => "expected `:`"
  | .trailingComma => "trailing comma"
  | .trailingCharacters => "trailing characters"
  | .keyNotString => "key must be a string"
  | .tooDeep => "recursion limit exceeded"
  | .controlCharacter => "control character (\\u0000-\\u001F) found while parsing a string"
  | .invalidEscape => "invalid escape"
  | .loneSurrogate => "lone leading surrogate in hex escape"
  | .unexpectedHexEnd => "unexpected end of hex escape"
  | .invalidNumber => "invalid number"
  | .outOfRange => "number out of range"

/-- A cause, and how many bytes are left behind the place it is reported at. -/
structure Failure where
  cause : Cause
  left : Nat
deriving DecidableEq, Repr

/-- What was read, and what remains. -/
abbrev Reading (α : Type) := Except Failure (α × List Char)

/-- A failure behind the first byte of what remains. -/
def failAt (cause : Cause) {α : Type} (rest : List Char) : Reading α :=
  .error ⟨cause, Utf8.size rest - 1⟩

def isSpace (c : Char) : Bool := c = ' ' || c = '\t' || c = '\n' || c = '\r'

def skipSpace (cs : List Char) : List Char := cs.dropWhile isSpace

/-- The rest of a word whose first letter was taken. -/
def word : List Char → List Char → Except Failure (List Char)
  | [], cs => .ok cs
  | _ :: _, [] => .error ⟨.endInValue, 0⟩
  | e :: es, c :: cs =>
    if c = e then word es cs else .error ⟨.expectedIdent, Utf8.size (c :: cs) - 1⟩

/-! ## Strings -/

def hexValue? (c : Char) : Option Nat :=
  if '0' ≤ c ∧ c ≤ '9' then some (c.toNat - 48)
  else if 'a' ≤ c ∧ c ≤ 'f' then some (c.toNat - 87)
  else if 'A' ≤ c ∧ c ≤ 'F' then some (c.toNat - 55)
  else none

def hex4? (a b c d : Char) : Option Nat :=
  match hexValue? a, hexValue? b, hexValue? c, hexValue? d with
  | some a, some b, some c, some d => some (((a * 16 + b) * 16 + c) * 16 + d)
  | _, _, _, _ => none

/-- The character of an escape letter. -/
def unescape? (c : Char) : Option Char :=
  if c = '"' ∨ c = '\\' ∨ c = '/' then some c
  else if c = 'b' then some '\x08'
  else if c = 'f' then some '\x0C'
  else if c = 'n' then some '\n'
  else if c = 'r' then some '\r'
  else if c = 't' then some '\t'
  else none

/-- Four bytes were to be taken but are not four hexadecimal digits. -/
def shortHex {α : Type} (cs : List Char) : Reading α :=
  if Utf8.size cs < 4 then .error ⟨.endInString, 0⟩ else .error ⟨.invalidEscape, Utf8.size cs - 4⟩

def isHighSurrogate (n : Nat) : Bool := 0xD800 ≤ n && n ≤ 0xDBFF

def isLowSurrogate (n : Nat) : Bool := 0xDC00 ≤ n && n ≤ 0xDFFF

def joinSurrogates (high low : Nat) : Char :=
  Char.ofNat ((high - 0xD800) * 0x400 + (low - 0xDC00) + 0x10000)

def consChar (c : Char) : Reading (List Char) → Reading (List Char)
  | .ok (s, rest) => .ok (c :: s, rest)
  | .error e => .error e

/-- A string whose opening quote was taken. -/
def stringTail : List Char → Reading (List Char)
  | [] => .error ⟨.endInString, 0⟩
  | c :: r =>
    if c = '"' then .ok ([], r)
    else if c = '\\' then
      match r with
      | [] => .error ⟨.endInString, 0⟩
      | e :: s =>
        match unescape? e with
        | some x => consChar x (stringTail s)
        | none =>
          if e = 'u' then
            match s with
            | h₁ :: h₂ :: h₃ :: h₄ :: t =>
              match hex4? h₁ h₂ h₃ h₄ with
              | none => shortHex (h₁ :: h₂ :: h₃ :: h₄ :: t)
              | some n =>
                if isLowSurrogate n then .error ⟨.loneSurrogate, Utf8.size t⟩
                else if isHighSurrogate n then
                  match t with
                  | [] => .error ⟨.endInString, 0⟩
                  | x :: u =>
                    if x = '\\' then
                      match u with
                      | [] => .error ⟨.endInString, 0⟩
                      | y :: v =>
                        if y = 'u' then
                          match v with
                          | k₁ :: k₂ :: k₃ :: k₄ :: w =>
                            match hex4? k₁ k₂ k₃ k₄ with
                            | none => shortHex (k₁ :: k₂ :: k₃ :: k₄ :: w)
                            | some m =>
                              if isLowSurrogate m then consChar (joinSurrogates n m) (stringTail w)
                              else .error ⟨.loneSurrogate, Utf8.size w⟩
                          | v => shortHex v
                        else failAt .unexpectedHexEnd (y :: v)
                    else failAt .unexpectedHexEnd (x :: u)
                else consChar (Char.ofNat n) (stringTail t)
            | s => shortHex s
          else failAt .invalidEscape (e :: s)
    else if c.toNat < 0x20 then .error ⟨.controlCharacter, Utf8.size r⟩
    else consChar c (stringTail r)

/-! ## Numbers -/

def digitValue (c : Char) : Nat := c.toNat - 48

/-- The first number that 64 bits do not hold. -/
def significandLimit : Nat := 18446744073709551616

/-- Takes digits into the significand while 64 bits hold it. The digits left over come second. -/
def takeDigits : Nat → List Char → Nat × List Char
  | n, [] => (n, [])
  | n, c :: cs =>
    if n * 10 + digitValue c < significandLimit then takeDigits (n * 10 + digitValue c) cs
    else (n, c :: cs)

/-- The largest exponent that is told from an overflow. -/
def maxExponent : Nat := 2147483647

/-- Takes the digits of an exponent while it is not too large. The digits left over come second. -/
def takeExponent : Nat → List Char → Nat × List Char
  | n, [] => (n, [])
  | n, c :: cs =>
    if n * 10 + digitValue c ≤ maxExponent then takeExponent (n * 10 + digitValue c) cs
    else (n, c :: cs)

def signed (negative : Bool) (x : Binary64) : Binary64 := if negative then x.neg else x

/-- A number that is not an integer of 64 bits, from its significand and its exponent. -/
def floatOf (negative : Bool) (significand : Nat) (exponent : Int) (rest : List Char) :
    Reading Number :=
  match Binary64.ofDecimal significand exponent with
  | some x => .ok (.float (signed negative x), rest)
  | none => .error ⟨.outOfRange, Utf8.size rest⟩

/-- The written exponent after its mark, added to the exponent so far. -/
def exponentTail (negative : Bool) (significand : Nat) (exponent : Int) (cs : List Char) :
    Reading Number :=
  let (down, r) : Bool × List Char :=
    match cs with
    | '+' :: r => (false, r)
    | '-' :: r => (true, r)
    | r => (false, r)
  match r with
  | [] => .error ⟨.endInValue, 0⟩
  | c :: _ =>
    if !c.isDigit then failAt .invalidNumber r
    else
      let rest := r.dropWhile Char.isDigit
      let (written, beyond) := takeExponent 0 (r.takeWhile Char.isDigit)
      match beyond with
      | [] =>
        let total := if down then exponent - written else exponent + written
        floatOf negative significand (max (-maxExponent - 1) (min maxExponent total)) rest
      | _ :: more =>
        if significand ≠ 0 ∧ !down then .error ⟨.outOfRange, Utf8.size (more ++ rest)⟩
        else .ok (.float (signed negative ⟨0⟩), rest)

/-- The exponent, if one is written. -/
def exponentPart (negative : Bool) (significand : Nat) (exponent : Int) : List Char → Reading Number
  | [] => floatOf negative significand exponent []
  | c :: r =>
    if c = 'e' ∨ c = 'E' then exponentTail negative significand exponent r
    else floatOf negative significand exponent (c :: r)

/-- The digits after the point. -/
def fractionPart (negative : Bool) (significand : Nat) (exponent : Int) (cs : List Char) :
    Reading Number :=
  let digits := cs.takeWhile Char.isDigit
  let rest := cs.dropWhile Char.isDigit
  if digits = [] then
    match cs with
    | [] => .error ⟨.endInValue, 0⟩
    | _ => failAt .invalidNumber cs
  else
    let (all, beyond) := takeDigits significand digits
    exponentPart negative all (exponent - (digits.length - beyond.length : Nat)) rest

/-- An integer, unless it is written as a negative zero or 64 bits do not hold it. -/
def wholeNumber (negative : Bool) (n : Nat) (rest : List Char) : Reading Number :=
  if negative ∧ n = 0 then floatOf true 0 0 rest
  else
    match Integer.ofInt? (if negative then -n else n) with
    | some i => .ok (.int i, rest)
    | none => floatOf negative n 0 rest

/-- A number whose sign was taken and whose first digit is next. -/
def magnitude (negative : Bool) (cs : List Char) : Reading Number :=
  let digits := cs.takeWhile Char.isDigit
  let rest := cs.dropWhile Char.isDigit
  if digits.head? = some '0' ∧ 1 < digits.length then failAt .invalidNumber (cs.drop 1)
  else
    let (n, beyond) := takeDigits 0 digits
    match rest with
    | [] =>
      if beyond = [] then wholeNumber negative n rest else floatOf negative n beyond.length rest
    | c :: r =>
      if c = '.' then fractionPart negative n beyond.length r
      else if c = 'e' ∨ c = 'E' then exponentTail negative n beyond.length r
      else if beyond = [] then wholeNumber negative n rest
      else floatOf negative n beyond.length rest

/-- A number; its first character is a sign or a digit. -/
def number (cs : List Char) : Reading Number :=
  match cs with
  | '-' :: r =>
    match r with
    | [] => .error ⟨.endInValue, 0⟩
    | c :: _ => if c.isDigit then magnitude true r else failAt .invalidNumber r
  | _ => magnitude false cs

/-! ## Values -/

/-- How many arrays and objects may be nested in one another. -/
def maxDepth : Nat := 127

mutual

/-- A value, inside of which `depth` more levels may be opened. -/
def value : Nat → Nat → List Char → Reading Json
  | 0, _, cs => failAt .tooDeep cs
  | fuel + 1, depth, cs =>
    match skipSpace cs with
    | [] => .error ⟨.endInValue, 0⟩
    | c :: r =>
      if c = 'n' then (word ['u', 'l', 'l'] r).map (.null, ·)
      else if c = 't' then (word ['r', 'u', 'e'] r).map (.bool true, ·)
      else if c = 'f' then (word ['a', 'l', 's', 'e'] r).map (.bool false, ·)
      else if c = '"' then (stringTail r).map fun (s, rest) => (.str (String.ofList s), rest)
      else if c = '-' ∨ c.isDigit then (number (c :: r)).map fun (n, rest) => (.num n, rest)
      else if c = '[' then
        match depth with
        | 0 => failAt .tooDeep (c :: r)
        | depth + 1 =>
          match skipSpace r with
          | [] => .error ⟨.endInList, 0⟩
          | d :: s =>
            if d = ']' then .ok (.arr [], s)
            else (items fuel depth (d :: s)).map fun (vs, rest) => (.arr vs, rest)
      else if c = '{' then
        match depth with
        | 0 => failAt .tooDeep (c :: r)
        | depth + 1 =>
          match skipSpace r with
          | [] => .error ⟨.endInObject, 0⟩
          | d :: s =>
            if d = '}' then .ok (.obj [], s)
            else (members fuel depth (d :: s)).map fun (ms, rest) => (.obj ms, rest)
      else failAt .expectedValue (c :: r)

/-- The items of an array from the next one on, and the closing bracket. -/
def items : Nat → Nat → List Char → Reading (List Json)
  | 0, _, cs => failAt .tooDeep cs
  | fuel + 1, depth, cs =>
    match value fuel depth cs with
    | .error e => .error e
    | .ok (v, r) =>
      match skipSpace r with
      | [] => .error ⟨.endInList, 0⟩
      | c :: s =>
        if c = ']' then .ok ([v], s)
        else if c = ',' then
          match skipSpace s with
          | [] => .error ⟨.endInValue, 0⟩
          | d :: t =>
            if d = ']' then failAt .trailingComma (d :: t)
            else (items fuel depth (d :: t)).map fun (vs, rest) => (v :: vs, rest)
        else failAt .expectedListEnd (c :: s)

/-- The members of an object from the next name on, and the closing brace. -/
def members : Nat → Nat → List Char → Reading Members
  | 0, _, cs => failAt .tooDeep cs
  | _, _, [] => .error ⟨.endInValue, 0⟩
  | fuel + 1, depth, q :: cs =>
    if q ≠ '"' then failAt .keyNotString (q :: cs)
    else
      match stringTail cs with
      | .error e => .error e
      | .ok (name, r) =>
        match skipSpace r with
        | [] => .error ⟨.endInObject, 0⟩
        | k :: s =>
          if k ≠ ':' then failAt .expectedColon (k :: s)
          else
            match value fuel depth s with
            | .error e => .error e
            | .ok (v, r) =>
              match skipSpace r with
              | [] => .error ⟨.endInObject, 0⟩
              | c :: s =>
                if c = '}' then .ok ([(String.ofList name, v)], s)
                else if c = ',' then
                  match skipSpace s with
                  | [] => .error ⟨.endInValue, 0⟩
                  | d :: t =>
                    if d = '}' then failAt .trailingComma (d :: t)
                    else (members fuel depth (d :: t)).map fun (ms, rest) =>
                      ((String.ofList name, v) :: ms, rest)
                else failAt .expectedObjectEnd (c :: s)

end

/-- A whole text: one value and nothing but space behind it. -/
def document (cs : List Char) : Except Failure Json :=
  match value (2 * cs.length + 2) maxDepth cs with
  | .error e => .error e
  | .ok (v, r) =>
    match skipSpace r with
    | [] => .ok v
    | c :: s => .error ⟨.trailingCharacters, Utf8.size (c :: s) - 1⟩

/-- A cause, and the line and the column at which it is reported. -/
structure ReadError where
  cause : Cause
  line : Nat
  column : Nat
deriving DecidableEq, Repr

def ReadError.message (e : ReadError) : String :=
  s!"{e.cause.message} at line {e.line} column {e.column}"

/-- Lines are counted from one; the column counts the bytes since the last line break. -/
def Failure.locate (text : List Char) (f : Failure) : ReadError :=
  let bytes := Utf8.encode text
  let before := bytes.take (bytes.length - f.left)
  ⟨f.cause, 1 + before.count 10, (before.reverse.takeWhile (· ≠ 10)).length⟩

/-- The document of a text, names and order as written. -/
def readDocument (text : List Char) : Except ReadError Json :=
  match document text with
  | .ok v => .ok v
  | .error f => .error (f.locate text)

/-- The value of a text. -/
def read (text : String) : Except ReadError Json := (readDocument text.toList).map canonical

end CobolDialects.Json
