import CobolDialects.Json.Printer
import CobolDialects.Json.Reader
import Mathlib.Tactic.Common

/-!
# Written strings and integers

A written string is read back whatever follows its closing quote, and a written integer is read
back if what follows cannot go on a number.
-/

namespace CobolDialects.Json

/-! ## Strings -/

theorem hexValue?_digitChar : ∀ d < 16, hexValue? (Nat.digitChar d) = some d := by decide

/-- Four digits of which the first two are zero spell a control character. -/
theorem hex4?_control {n : Nat} (h : n < 0x20) :
    hex4? '0' '0' (Nat.digitChar (n / 16)) (Nat.digitChar (n % 16)) = some n := by
  have zero : hexValue? '0' = some 0 := by decide
  simp only [hex4?, zero, hexValue?_digitChar (n / 16) (by omega),
    hexValue?_digitChar (n % 16) (by omega)]
  congr 1
  omega

theorem stringTail_quote (rest : List Char) : stringTail ('"' :: rest) = .ok ([], rest) := by
  rw [stringTail.eq_def]
  rfl

theorem stringTail_letter {e x : Char} (h : unescape? e = some x) (rest : List Char) :
    stringTail ('\\' :: e :: rest) = consChar x (stringTail rest) := by
  rw [stringTail.eq_def]
  simp [h]

theorem stringTail_control {c : Char} (h : c.toNat < 0x20) (rest : List Char) :
    stringTail ('\\' :: 'u' :: '0' :: '0' :: Nat.digitChar (c.toNat / 16) ::
      Nat.digitChar (c.toNat % 16) :: rest) = consChar c (stringTail rest) := by
  have letter : unescape? 'u' = none := by decide
  have low : isLowSurrogate c.toNat = false := by simp [isLowSurrogate]; omega
  have high : isHighSurrogate c.toNat = false := by simp [isHighSurrogate]; omega
  rw [stringTail.eq_def]
  simp [letter, hex4?_control h, low, high]

theorem stringTail_plain {c : Char} (quote : c ≠ '"') (backslash : c ≠ '\\')
    (h : ¬c.toNat < 0x20) (rest : List Char) :
    stringTail (c :: rest) = consChar c (stringTail rest) := by
  rw [stringTail.eq_def]
  simp only [if_neg quote, if_neg backslash, if_neg h]

/-- The spelling of a character is read as that character. -/
theorem stringTail_escape (c : Char) (rest : List Char) :
    stringTail (escape c ++ rest) = consChar c (stringTail rest) := by
  unfold escape
  split_ifs with quote backslash back feed line ret tab control
  · exact stringTail_letter (by simp [unescape?, quote]) rest
  · exact stringTail_letter (by simp [unescape?, backslash]) rest
  · exact stringTail_letter (by simp [unescape?, back]) rest
  · exact stringTail_letter (by simp [unescape?, feed]) rest
  · exact stringTail_letter (by simp [unescape?, line]) rest
  · exact stringTail_letter (by simp [unescape?, ret]) rest
  · exact stringTail_letter (by simp [unescape?, tab]) rest
  · exact stringTail_control control rest
  · exact stringTail_plain quote backslash control rest

theorem stringTail_flatMap_escape (s rest : List Char) :
    stringTail (s.flatMap escape ++ '"' :: rest) = .ok (s, rest) := by
  induction s with
  | nil => exact stringTail_quote rest
  | cons c s ih => rw [List.flatMap_cons, List.append_assoc, stringTail_escape, ih, consChar]

/-- A written string opens with a quote, behind which it is read back. -/
theorem exists_writeString (s : String) : ∃ tail, writeString s = '"' :: tail ∧
    ∀ rest, stringTail (tail ++ rest) = .ok (s.toList, rest) := by
  refine ⟨s.toList.flatMap escape ++ ['"'], rfl, fun rest => ?_⟩
  rw [List.append_assoc]
  exact stringTail_flatMap_escape s.toList rest

/-! ## Integers -/

/-- What follows cannot go on a number. -/
def EndsNumber (rest : List Char) : Prop :=
  ∀ c ∈ rest.head?, c.isDigit = false ∧ c ≠ '.' ∧ c ≠ 'e' ∧ c ≠ 'E'

theorem le_ofDigitChars (digits : List Char) (n : Nat) : n ≤ Nat.ofDigitChars 10 digits n := by
  rw [Nat.ofDigitChars_eq_ofDigitChars_zero]
  have := Nat.le_mul_of_pos_left n (Nat.pow_pos (n := digits.length) (show 0 < 10 by decide))
  omega

/-- All digits are taken into a number that 64 bits hold. -/
theorem takeDigits_eq {digits : List Char} {n : Nat}
    (h : Nat.ofDigitChars 10 digits n < significandLimit) :
    takeDigits n digits = (Nat.ofDigitChars 10 digits n, []) := by
  induction digits generalizing n with
  | nil => simp [takeDigits, Nat.ofDigitChars_nil]
  | cons c digits ih =>
    rw [Nat.ofDigitChars_cons, Nat.mul_comm] at h ⊢
    have step : n * 10 + digitValue c < significandLimit :=
      Nat.lt_of_le_of_lt (le_ofDigitChars digits _) h
    rw [takeDigits, if_pos step]
    exact ih h

theorem head?_toDigits {n : Nat} (h : 0 < n) : (Nat.toDigits 10 n).head? ≠ some '0' := by
  induction n using Nat.strongRecOn with
  | ind n ih =>
    by_cases small : n < 10
    · rw [Nat.toDigits_of_lt_base small]
      have digits : ∀ d < 10, 0 < d → [Nat.digitChar d].head? ≠ some '0' := by decide
      exact digits n small h
    · rw [Nat.toDigits_of_base_le (by decide) (by omega), List.head?_append,
        Option.or_of_isSome (by simp [Nat.toDigits_ne_nil])]
      exact ih (n / 10) (by omega) (by omega)

/-- Only the number zero is written with a zero in front. -/
theorem not_leading_zero (n : Nat) :
    ¬((Nat.toDigits 10 n).head? = some '0' ∧ 1 < (Nat.toDigits 10 n).length) := by
  rintro ⟨zero, long⟩
  rcases Nat.eq_zero_or_pos n with rfl | pos
  · simp at long
  · exact head?_toDigits pos zero

theorem takeWhile_toDigits {n : Nat} {rest : List Char} (h : EndsNumber rest) :
    (Nat.toDigits 10 n ++ rest).takeWhile Char.isDigit = Nat.toDigits 10 n ∧
      (Nat.toDigits 10 n ++ rest).dropWhile Char.isDigit = rest := by
  have digits : ∀ c ∈ Nat.toDigits 10 n, c.isDigit = true := fun c there =>
    Nat.isDigit_of_mem_toDigits (by decide) (by decide) there
  rw [List.takeWhile_append_of_pos digits, List.dropWhile_append_of_pos digits]
  cases rest with
  | nil => simp
  | cons c rest => simp [(h c rfl).1]

/-- Written digits are read as a whole number. -/
theorem magnitude_toDigits {n : Nat} {rest : List Char} (negative : Bool) (h : EndsNumber rest)
    (small : n < significandLimit) :
    magnitude negative (Nat.toDigits 10 n ++ rest) = wholeNumber negative n rest := by
  have value := Nat.ofDigitChars_ten_toDigits (n := n)
  have fits : Nat.ofDigitChars 10 (Nat.toDigits 10 n) 0 < significandLimit := by rwa [value]
  have noZero := not_leading_zero n
  obtain ⟨digits, behind⟩ := takeWhile_toDigits (n := n) h
  unfold magnitude
  dsimp only
  rw [digits, behind, if_neg noZero, takeDigits_eq fits, value]
  cases rest with
  | nil => simp
  | cons c rest =>
    obtain ⟨-, point, mark, Mark⟩ := h c rfl
    simp [point, mark, Mark]

theorem exists_toDigits (n : Nat) :
    ∃ c digits, Nat.toDigits 10 n = c :: digits ∧ c.isDigit = true := by
  obtain ⟨c, digits, split⟩ := List.exists_cons_of_ne_nil (Nat.toDigits_ne_nil (n := n) (b := 10))
  exact ⟨c, digits, split,
    Nat.isDigit_of_mem_toDigits (b := 10) (n := n) (by decide) (by decide) (by simp [split])⟩

theorem ofInt?_value (n : Integer) : Integer.ofInt? n.value = some n := by
  simp [Integer.ofInt?, n.lower, n.upper]

/-- A written integer begins with a sign or a digit and is read back. -/
theorem number_writeInt (n : Integer) : ∃ c tail, writeInt n.value = c :: tail ∧
    (c = '-' ∨ c.isDigit = true) ∧
    ∀ rest, EndsNumber rest → number (c :: tail ++ rest) = .ok (.int n, rest) := by
  have lower := n.lower
  have upper := n.upper
  obtain ⟨c, digits, split, digit⟩ := exists_toDigits n.value.natAbs
  by_cases negative : n.value < 0
  · refine ⟨'-', c :: digits, by rw [writeInt, if_pos negative, split], .inl rfl, fun rest h => ?_⟩
    have read := magnitude_toDigits true h (n := n.value.natAbs) (by unfold significandLimit; omega)
    have value : (-(n.value.natAbs : Int)) = n.value := by omega
    rw [split] at read
    simp only [List.cons_append, number, digit, if_true] at read ⊢
    rw [read, wholeNumber, if_neg (by omega), if_pos rfl, value, ofInt?_value]
  · refine ⟨c, digits, by rw [writeInt, if_neg negative, split], .inr digit, fun rest h => ?_⟩
    have read := magnitude_toDigits false h (n := n.value.natAbs)
      (by unfold significandLimit; omega)
    have value : (n.value.natAbs : Int) = n.value := by omega
    have sign : c ≠ '-' := by rintro rfl; simp at digit
    rw [number.eq_def]
    split
    · simp_all
    · rw [← split, read, wholeNumber, if_neg (by simp), if_neg (by simp), value, ofInt?_value]

end CobolDialects.Json
