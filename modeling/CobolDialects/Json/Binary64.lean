/-!
# Floating-point numbers of 64 bits

A number is kept by its bits and all arithmetic on it is exact arithmetic on naturals followed by
one rounding, so every result can be computed in the logic. The digits that are written are the
fewest that read back.
-/

namespace CobolDialects

/-- A binary floating-point number of 64 bits, by its bits. -/
structure Binary64 where
  bits : UInt64
deriving DecidableEq, Repr

namespace Binary64

/-- A power of two. -/
def pow2 (n : Nat) : Nat := Nat.pow 2 n

/-- A power of ten. -/
def pow10 (n : Nat) : Nat := Nat.pow 10 n

/-- All bits but the sign. -/
def magnitude (x : Binary64) : Nat := x.bits.toNat % pow2 63

def negative (x : Binary64) : Bool := pow2 63 ≤ x.bits.toNat

/-- The power of two that scales the significand, counted from the least one. -/
def exponent (x : Binary64) : Nat := x.magnitude / pow2 52 - 1

/-- The magnitude is `significand * 2 ^ exponent / 2 ^ 1074`. -/
def significand (x : Binary64) : Nat := x.magnitude - x.exponent * pow2 52

def ofMagnitude (negative : Bool) (magnitude : Nat) : Binary64 :=
  ⟨UInt64.ofNat (if negative then magnitude + pow2 63 else magnitude)⟩

/-- The quotient rounded to the nearest natural, a half going to the even neighbour. -/
def roundDiv (a b : Nat) : Nat :=
  let q := a / b
  let r := a % b
  if b < 2 * r ∨ (b = 2 * r ∧ q % 2 = 1) then q + 1 else q

/-- The number nearest to a ratio, unless it lies beyond the largest number. -/
def ofRatio (negative : Bool) (num den : Nat) : Option Binary64 :=
  let scaled := num * pow2 1074
  let shift := (scaled / den).log2 - 52
  let magnitude := shift * pow2 52 + roundDiv scaled (den * pow2 shift)
  if magnitude < 0x7FF * pow2 52 then some (ofMagnitude negative magnitude) else none

/-- The product of two magnitudes. -/
def mul (x y : Binary64) : Option Binary64 :=
  ofRatio false (x.significand * y.significand * pow2 (x.exponent + y.exponent)) (pow2 2148)

/-- The quotient of two magnitudes. -/
def div (x y : Binary64) : Option Binary64 :=
  ofRatio false (x.significand * pow2 x.exponent) (y.significand * pow2 y.exponent)

def neg (x : Binary64) : Binary64 := ofMagnitude (!x.negative) x.magnitude

/-- The number nearest to a power of ten. -/
def tenTo (n : Nat) : Option Binary64 := ofRatio false (pow10 n) 1

/-- The largest power of ten that is a number. -/
def maxTen : Nat := 308

/-- Scales by a power of ten in steps of at most `maxTen`, each of which rounds. -/
def scale : Nat → Binary64 → Int → Option Binary64
  | 0, x, _ => some x
  | steps + 1, x, e =>
    if e.natAbs ≤ maxTen then
      if 0 ≤ e then (tenTo e.natAbs).bind x.mul else (tenTo e.natAbs).bind x.div
    else if x.magnitude = 0 then some x
    else if 0 < e then none
    else ((tenTo maxTen).bind x.div).bind (scale steps · (e + maxTen))

/-- The number written as `significand * 10 ^ exponent`: the significand is rounded first and each
scaling step after it. -/
def ofDecimal (significand : Nat) (exponent : Int) : Option Binary64 :=
  (ofRatio false significand 1).bind (scale (exponent.natAbs + 1) · exponent)

/-- The decimal exponent of the first digit of `num / den`. -/
def firstDigit (num den : Nat) : Int :=
  let guess : Int := (Nat.toDigits 10 num).length - (Nat.toDigits 10 den).length
  let reached : Bool :=
    if 0 ≤ guess then den * pow10 guess.natAbs ≤ num else den ≤ num * pow10 guess.natAbs
  if reached then guess else guess - 1

/-- The numbers that round to `x` lie between `low` and `high`, in units of `2 ^ -1076`. The ends
round to `x` when its significand is even. -/
structure Rounding where
  low : Nat
  value : Nat
  high : Nat
  closed : Bool

def rounding (x : Binary64) : Rounding :=
  let unit := pow2 x.exponent
  let below := if x.significand = pow2 52 ∧ 0 < x.exponent then unit else 2 * unit
  let value := 4 * x.significand * unit
  ⟨value - below, value, value + 2 * unit, x.significand % 2 = 0⟩

/-- Of the two points `d * 10 ^ k` beside `x`, the nearer one that reads back. -/
def nearestOn (r : Rounding) (k : Int) : Option Nat :=
  let up := if 0 ≤ k then 1 else pow10 k.natAbs
  let down := pow2 1076 * (if 0 ≤ k then pow10 k.natAbs else 1)
  let inside (d : Nat) : Bool :=
    if r.closed then r.low * up ≤ d * down && d * down ≤ r.high * up
    else r.low * up < d * down && d * down < r.high * up
  let d := r.value * up / down
  let rest := r.value * up - d * down
  let lower := inside d && d != 0
  let upper := inside (d + 1)
  if lower && upper then
    if 2 * rest < down ∨ (2 * rest = down ∧ d % 2 = 0) then some d else some (d + 1)
  else if lower then some d
  else if upper then some (d + 1)
  else none

/-- The magnitude as `digits * 10 ^ exponent` with the fewest digits that read back, and of those
the nearest. -/
def shortest (x : Binary64) : Nat × Int :=
  let r := x.rounding
  let e := firstDigit r.value (pow2 1076)
  let found := (List.range 17).findSome? fun (n : Nat) =>
    (nearestOn r (e - n)).map fun d => (d, e - (n : Int))
  found.getD (0, 0)

/-- How a number is laid out: from which to which decimal exponent of the first digit it is
written without an exponent. -/
structure Layout where
  plainFrom : Int
  plainTo : Int
  mark : Char

/-- Numbers from 0.00001 up to below 10^16 are written without an exponent. -/
def layout : Layout := ⟨-5, 15, 'e'⟩

/-- Digits without their last zeros, and the exponent that makes up for them. -/
def dropZeros : List Char → Int → List Char × Int
  | ds, k => ((ds.reverse.dropWhile (· = '0')).reverse, k + (ds.reverse.takeWhile (· = '0')).length)

/-- Digits with the point after the digit of exponent zero. -/
def plain (digits : List Char) (first : Int) : List Char :=
  if first < 0 then '0' :: '.' :: (List.replicate (first.natAbs - 1) '0' ++ digits)
  else
    let whole := first.natAbs + 1
    if digits.length ≤ whole then digits ++ List.replicate (whole - digits.length) '0' ++ ['.', '0']
    else digits.take whole ++ '.' :: digits.drop whole

/-- One digit, the others after a point, and the exponent with its sign. -/
def scientific (mark : Char) (digits : List Char) (first : Int) : List Char :=
  let fraction := if digits.length ≤ 1 then [] else '.' :: digits.drop 1
  digits.take 1 ++ fraction ++ [mark, if first < 0 then '-' else '+'] ++
    Nat.toDigits 10 first.natAbs

/-- The digits of the magnitude, laid out. -/
def writeMagnitude (x : Binary64) : List Char :=
  if x.magnitude = 0 then ['0', '.', '0']
  else
    let (d, k) := x.shortest
    let (digits, k) := dropZeros (Nat.toDigits 10 d) k
    let first := digits.length + k - 1
    if layout.plainFrom ≤ first ∧ first ≤ layout.plainTo then plain digits first
    else scientific layout.mark digits first

def write (x : Binary64) : List Char :=
  if x.negative then '-' :: x.writeMagnitude else x.writeMagnitude

end Binary64

end CobolDialects
