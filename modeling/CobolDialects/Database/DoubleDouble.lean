import CobolDialects.Json.Binary64

/-!
# Pairs of floating-point numbers

A pair stands for the sum of its two numbers, of which the second is what rounding left over from
the first. Products of pairs are found by cutting each number in two halves whose products are
exact, so that almost twice the digits of one number are kept.
-/

namespace CobolDialects

namespace Binary64

/-- The value in units of `2 ^ -1074`. -/
def units (x : Binary64) : Int :=
  let n := x.significand * pow2 x.exponent
  if x.negative then -(n : Int) else n

/-- The number nearest to `n / den`, unless it lies beyond all numbers. -/
def nearest (n : Int) (den : Nat) : Option Binary64 := ofRatio (n < 0) n.natAbs den

def plus (x y : Binary64) : Option Binary64 := nearest (x.units + y.units) (pow2 1074)

def minus (x y : Binary64) : Option Binary64 := nearest (x.units - y.units) (pow2 1074)

def times (x y : Binary64) : Option Binary64 := nearest (x.units * y.units) (pow2 2148)

/-- The number with the lower half of its significand cleared. -/
def upperHalf (x : Binary64) : Binary64 := ⟨x.bits &&& 0xFFFFFFFFFC000000⟩

example : (⟨0x3FB999999999999A⟩ : Binary64).plus ⟨0x3FC999999999999A⟩ = some ⟨0x3FD3333333333334⟩ :=
  by decide +kernel
example : (⟨0x3FB999999999999A⟩ : Binary64).times ⟨0xC008000000000000⟩ =
    some ⟨0xBFD3333333333334⟩ :=
  by decide +kernel

end Binary64

/-- A sum of two numbers. -/
structure DoubleDouble where
  high : Binary64
  low : Binary64
deriving DecidableEq, Repr

namespace DoubleDouble

/-- The pair nearest to a ratio: the nearest number, and the one nearest to what is left. -/
def nearest (num den : Nat) : Option DoubleDouble := do
  let high ← Binary64.nearest num den
  let rest := num * Binary64.pow2 1074 - high.units * den
  return ⟨high, ← Binary64.nearest rest (den * Binary64.pow2 1074)⟩

/-- The product of two pairs, as far as a pair can hold it. -/
def mul (x y : DoubleDouble) : Option DoubleDouble := do
  let hx := x.high.upperHalf
  let tx ← x.high.minus hx
  let hy := y.high.upperHalf
  let ty ← y.high.minus hy
  let p ← hx.times hy
  let q ← (← hx.times ty).plus (← tx.times hy)
  let c ← p.plus q
  let rest ← (← (← p.minus c).plus q).plus (← tx.times ty)
  let cross ← (← x.high.times y.low).plus (← x.low.times y.high)
  let rest ← cross.plus rest
  let high ← c.plus rest
  return ⟨high, ← (← c.minus high).plus rest⟩

/-- Multiplies as often as is asked. -/
def mulTimes (factor : DoubleDouble) : Nat → DoubleDouble → Option DoubleDouble
  | 0, x => some x
  | n + 1, x => (x.mul factor).bind (mulTimes factor n)

/-- The pair of a power of ten. -/
def tenTo (e : Int) : Option DoubleDouble :=
  if 0 ≤ e then nearest (Binary64.pow10 e.natAbs) 1 else nearest 1 (Binary64.pow10 e.natAbs)

/-- Scales by `10 ^ e`: by hundreds of powers first, then by tens, then by single ones. -/
def scale (e : Int) (x : DoubleDouble) : Option DoubleDouble := do
  let sign : Int := if 0 ≤ e then 1 else -1
  let n := e.natAbs
  let x ← mulTimes (← tenTo (sign * 100)) (n / 100) x
  let x ← mulTimes (← tenTo (sign * 10)) (n % 100 / 10) x
  mulTimes (← tenTo sign) (n % 10) x

/-- The number nearest to a pair. -/
def round (x : DoubleDouble) : Option Binary64 := x.high.plus x.low

example : (nearest 1 10).bind (fun x => (tenTo 1).bind x.mul) = nearest 1 1 := by decide +kernel

end DoubleDouble

end CobolDialects
