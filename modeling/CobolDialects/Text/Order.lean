import CobolDialects.Text.Utf8

/-!
# The order of texts and names

Texts are ordered by the code points of their characters, which is the order of their bytes, and a
text comes before those that continue it. Names are ordered by their bytes, and locations in a tree
by their names.
-/

namespace CobolDialects

/-- Whether a list comes before another: at the first place where they differ, `less` decides. -/
def precedes {α : Type} [DecidableEq α] (less : α → α → Bool) : List α → List α → Bool
  | _, [] => false
  | [], _ :: _ => true
  | a :: as, b :: bs => if a = b then precedes less as bs else less a b

/-- The order of texts. -/
def textBefore (a b : String) : Bool :=
  precedes (fun x y => Nat.blt x.toNat y.toNat) a.toList b.toList

/-- The order of names. -/
def nameBefore (a b : Bytes) : Bool := precedes (fun x y => Nat.blt x.toNat y.toNat) a b

end CobolDialects
