import CobolDialects.Database.DoubleDouble

/-!
# Numbers in texts

A text spells a number if it is nothing but digits, with a point among them and an exponent behind
them where these are wanted, a sign in front and white space around. An integer that a column holds
is read exactly. Any other number is read to as many digits as an integer of 64 bits has, and scaled
by its exponent as a pair of floating-point numbers before it is rounded.
-/

namespace CobolDialects.Database

/-- The white space that may surround a number. -/
def isGap (c : Char) : Bool := c = ' ' || ('\t' ≤ c && c ≤ '\r')

def trimGaps (cs : List Char) : List Char :=
  ((cs.dropWhile isGap).reverse.dropWhile isGap).reverse

/-- A decimal number as it is written. -/
structure Numeral where
  negative : Bool
  whole : List Char
  fraction : Option (List Char)
  exponent : Option Int
deriving DecidableEq, Repr

namespace Numeral

def takeSign : List Char → Bool × List Char
  | '-' :: r => (true, r)
  | '+' :: r => (false, r)
  | r => (false, r)

def digitValue (c : Char) : Nat := c.toNat - 48

def ofDigits (cs : List Char) : Nat := cs.foldl (fun n c => n * 10 + digitValue c) 0

/-- An exponent is not counted beyond this. -/
def exponentLimit : Nat := 10000

/-- The exponent that digits spell. -/
def ofExponentDigits (cs : List Char) : Nat :=
  cs.foldl (fun n c => if n < exponentLimit then n * 10 + digitValue c else exponentLimit) 0

/-- The exponent behind the digits: none, or a mark and at least one digit up to the end. -/
def readExponent : List Char → Option (Option Int)
  | [] => some none
  | c :: r =>
    if c = 'e' ∨ c = 'E' then
      let (negative, digits) := takeSign r
      if digits ≠ [] ∧ digits.all Char.isDigit then
        let n := ofExponentDigits digits
        some (some (if negative then -(n : Int) else n))
      else none
    else none

/-- The number that a text spells, if it spells one and nothing else. -/
def ofText (cs : List Char) : Option Numeral :=
  let (negative, cs) := takeSign (trimGaps cs)
  let whole := cs.takeWhile Char.isDigit
  let rest := cs.dropWhile Char.isDigit
  let (fraction, rest) : Option (List Char) × List Char :=
    match rest with
    | '.' :: r => (some (r.takeWhile Char.isDigit), r.dropWhile Char.isDigit)
    | r => (none, r)
  if whole = [] ∧ fraction.getD [] = [] then none
  else (readExponent rest).map fun exponent => ⟨negative, whole, fraction, exponent⟩

/-! ## Values -/

/-- The least significand that takes no further digit. -/
def significandLimit : Nat := 1844674407370955160

/-- A number written as `significand * 10 ^ exponent`. -/
structure Scaled where
  significand : Nat
  exponent : Int
deriving DecidableEq, Repr

namespace Scaled

/-- Takes in a digit in front of the point. -/
def wholeDigit (n : Scaled) (c : Char) : Scaled :=
  if n.significand < significandLimit then ⟨n.significand * 10 + digitValue c, n.exponent⟩
  else ⟨n.significand, n.exponent + 1⟩

/-- Takes in a digit behind the point. -/
def fractionDigit (n : Scaled) (c : Char) : Scaled :=
  if n.significand < significandLimit then ⟨n.significand * 10 + digitValue c, n.exponent - 1⟩
  else n

/-- Significands below this are still multiplied by ten. -/
def growthLimit : Nat := 1844674407370954956

/-- Moves powers of ten into the significand while there is room. -/
def grow : Nat → Nat → Scaled
  | s, 0 => ⟨s, 0⟩
  | s, e + 1 => if s < growthLimit then grow (s * 10) e else ⟨s, e + 1⟩

/-- Takes powers of ten out of the significand while it has some; the exponent is given negated. -/
def shrink : Nat → Nat → Scaled
  | s, 0 => ⟨s, 0⟩
  | s, e + 1 => if s % 10 = 0 then shrink (s / 10) e else ⟨s, -((e : Int) + 1)⟩

/-- The same number with an exponent nearer to zero. -/
def balance (n : Scaled) : Scaled :=
  if 0 ≤ n.exponent then grow n.significand n.exponent.natAbs
  else shrink n.significand n.exponent.natAbs

/-- The floating-point number, unless it lies beyond all numbers. -/
def round (n : Scaled) : Option Binary64 :=
  if n.significand = 0 then some ⟨0⟩
  else
    let n := n.balance
    (DoubleDouble.nearest n.significand 1).bind fun x => (x.scale n.exponent).bind (·.round)

end Scaled

/-- The magnitude, with the digits that count. -/
def scaled (n : Numeral) : Scaled :=
  let read := (n.fraction.getD []).foldl Scaled.fractionDigit
    (n.whole.foldl Scaled.wholeDigit ⟨0, 0⟩)
  ⟨read.significand, read.exponent + n.exponent.getD 0⟩

/-- The floating-point number of a numeral: infinite if it lies beyond all numbers. -/
def toBinary (n : Numeral) : Binary64 :=
  match n.scaled.round with
  | some x => if n.negative then x.neg else x
  | none => Binary64.ofMagnitude n.negative (0x7FF * Binary64.pow2 52)

/-- The integer of a numeral that has neither point nor exponent. -/
def integer? (n : Numeral) : Option Int :=
  if n.fraction.isNone ∧ n.exponent.isNone then
    some (if n.negative then -(ofDigits n.whole : Int) else ofDigits n.whole)
  else none

end Numeral

end CobolDialects.Database
