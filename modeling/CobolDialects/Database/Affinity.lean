import CobolDialects.Database.Basic
import CobolDialects.Database.Numeral

/-!
# Column affinity

A column prefers a storage class, and a value that another program stores is brought to that class
where nothing is lost. In a column for integers, text that spells a number becomes one: an integer
if it is one, even when it is written with a fraction or an exponent. In a column for text an
integer becomes its decimal digits.
-/

namespace CobolDialects.Database

/-- The smallest integer that a column holds. -/
def minInteger : Int := -9223372036854775808

/-- The largest integer that a column holds. -/
def maxInteger : Int := 9223372036854775807

/-- Whether a column holds an integer. -/
def fitsInteger (n : Int) : Bool := minInteger ≤ n && n ≤ maxInteger

/-- A number as a column for integers keeps it. -/
def ofBinary (x : Binary64) : Cell :=
  let scaled := x.units.natAbs
  let n : Int := (scaled / Binary64.pow2 1074 : Nat)
  let n := if x.negative then -n else n
  if scaled % Binary64.pow2 1074 = 0 ∧ fitsInteger n ∧ n ≠ minInteger then .integer n else .real x

/-- A numeral as a column for integers keeps it. -/
def Numeral.cell (n : Numeral) : Cell :=
  match n.integer? with
  | some i => if fitsInteger i then .integer i else ofBinary n.toBinary
  | none => ofBinary n.toBinary

/-- A text stored in a column for integers. -/
def integerColumn (text : String) : Cell :=
  ((Numeral.ofText text.toList).map Numeral.cell).getD (.text (bytesOf text))

/-- A value stored in a column for text. -/
def textColumn : Cell → Cell
  | .integer n => .text (bytesOf (toString n))
  | cell => cell

/-- What another program may store as the time of the last write. -/
inductive Stamp where
  | integer (n : Int)
  | text (s : String)

def Stamp.cell : Stamp → Cell
  | .integer n => .integer n
  | .text s => integerColumn s

example : integerColumn " 7 " = .integer 7 := by decide +kernel
example : integerColumn "1e3" = .integer 1000 := by decide +kernel
example : integerColumn "0x10" = .text (bytesOf "0x10") := by decide +kernel

end CobolDialects.Database
