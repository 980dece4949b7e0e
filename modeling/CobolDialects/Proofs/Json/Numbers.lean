import CobolDialects.Proofs.Json.Tokens
import Mathlib.Data.List.TakeWhile

/-!
# The characters of numbers

Of floating-point numbers it is only said which characters they are written with. The reader takes
no other characters for a number, so what it takes of a written number ends where the number does
or leaves a character of it behind.
-/

namespace CobolDialects.Json

/-- Whether a character occurs in numbers. -/
def isNumeric (c : Char) : Bool := c.isDigit || c = '-' || c = '+' || c = '.' || c = 'e' || c = 'E'

theorem isNumeric_of_isDigit {c : Char} (h : c.isDigit = true) : isNumeric c = true := by
  simp [isNumeric, h]

/-- What follows does not begin with a character of a number. -/
def Apart (rest : List Char) : Prop := ∀ c ∈ rest.head?, isNumeric c = false

theorem apart_nil : Apart [] := by simp [Apart]

theorem apart_cons {c : Char} {rest : List Char} : Apart (c :: rest) ↔ isNumeric c = false := by
  simp [Apart]

theorem Apart.endsNumber {rest : List Char} (h : Apart rest) : EndsNumber rest := by
  intro c there
  have numeric := h c there
  simp only [isNumeric, Bool.or_eq_false_iff, decide_eq_false_iff_not] at numeric
  obtain ⟨⟨⟨⟨⟨digit, -⟩, -⟩, point⟩, mark⟩, capital⟩ := numeric
  exact ⟨digit, point, mark, capital⟩

theorem not_numeric_of_space {c : Char} (h : isSpace c = true) : isNumeric c = false := by
  simp only [isSpace, Bool.or_eq_true, decide_eq_true_eq] at h
  rcases h with ((rfl | rfl) | rfl) | rfl <;> decide

/-- Space is apart from numbers. -/
theorem apart_of_apart_skipSpace {rest : List Char} (h : Apart (skipSpace rest)) : Apart rest := by
  cases rest with
  | nil => exact apart_nil
  | cons d rest =>
    by_cases space : isSpace d = true
    · exact apart_cons.mpr (not_numeric_of_space space)
    · rwa [skipSpace, List.dropWhile_cons_of_neg space] at h

theorem apart_of_skipSpace {c : Char} {rest tail : List Char} (h : skipSpace rest = c :: tail)
    (numeric : isNumeric c = false) : Apart rest :=
  apart_of_apart_skipSpace (h ▸ apart_cons.mpr numeric)

/-! ## What the reader takes for a number -/

/-- Nothing but characters of numbers is in front of what remains. -/
def Takes (cs rest : List Char) : Prop :=
  ∃ taken, cs = taken ++ rest ∧ ∀ c ∈ taken, isNumeric c = true

variable {cs rest : List Char} {negative : Bool} {significand : Nat} {exponent : Int} {n : Number}

namespace Takes

theorem refl (cs : List Char) : Takes cs cs := ⟨[], rfl, by simp⟩

theorem trans {mid : List Char} (h : Takes cs mid) (h' : Takes mid rest) : Takes cs rest := by
  obtain ⟨first, rfl, numeric⟩ := h
  obtain ⟨second, rfl, numeric'⟩ := h'
  refine ⟨first ++ second, (List.append_assoc _ _ _).symm, fun c there => ?_⟩
  exact (List.mem_append.mp there).elim (numeric c) (numeric' c)

theorem cons {c : Char} (numeric : isNumeric c = true) (h : Takes cs rest) :
    Takes (c :: cs) rest :=
  .trans ⟨[c], rfl, by simpa using numeric⟩ h

theorem dropWhile (cs : List Char) : Takes cs (cs.dropWhile Char.isDigit) :=
  ⟨cs.takeWhile Char.isDigit, List.takeWhile_append_dropWhile.symm, fun _ there =>
    isNumeric_of_isDigit (List.mem_takeWhile_imp there)⟩

/-- Of a text that consists of characters of numbers all is taken, unless one of them remains. -/
theorem eq_of_apart {text behind : List Char} (h : Takes (text ++ rest) behind)
    (numeric : ∀ c ∈ text, isNumeric c = true) (apart : Apart rest) (apart' : Apart behind) :
    behind = rest := by
  obtain ⟨taken, split, taking⟩ := h
  rcases List.append_eq_append_iff.mp split with ⟨more, rfl, rfl⟩ | ⟨more, rfl, rfl⟩
  · cases more with
    | nil => rfl
    | cons c more =>
      have numeric := taking c (by simp)
      rw [apart_cons.mp apart] at numeric
      cases numeric
  · cases more with
    | nil => rfl
    | cons c more =>
      have numeric := numeric c (by simp)
      rw [apart_cons.mp apart'] at numeric
      cases numeric

end Takes

theorem floatOf_eq_ok (h : floatOf negative significand exponent cs = .ok (n, rest)) :
    rest = cs := by
  -- The conversion is hidden behind a name while it is opened, so that it is not carried out.
  obtain ⟨convert, same⟩ : ∃ convert, convert = floatOf := ⟨_, rfl⟩
  rw [← same] at h
  delta floatOf at same
  rw [same] at h
  beta_reduce at h
  generalize Binary64.ofDecimal significand exponent = x? at h
  cases x? with
  | some x => exact (Prod.mk.inj (Except.ok.inj h)).2.symm
  | none => cases h

/-- What remains behind a sign, if there is one. -/
theorem takes_sign {down : Bool} {r : List Char}
    (h : (match cs with
      | '+' :: r => (false, r)
      | '-' :: r => (true, r)
      | r => (false, r)) = (down, r)) : Takes cs r := by
  split at h
  · exact .cons rfl ((Prod.mk.inj h).2 ▸ .refl _)
  · exact .cons rfl ((Prod.mk.inj h).2 ▸ .refl _)
  · exact (Prod.mk.inj h).2 ▸ .refl _

theorem exponentTail_takes (h : exponentTail negative significand exponent cs = .ok (n, rest)) :
    Takes cs rest := by
  unfold exponentTail at h
  split at h
  rename_i down r sign
  refine (takes_sign sign).trans ?_
  cases r with
  | nil => cases h
  | cons c r =>
    generalize takeExponent 0 ((c :: r).takeWhile Char.isDigit) = written at h
    obtain ⟨written, beyond⟩ := written
    by_cases digit : c.isDigit
    swap
    · simp [digit, failAt] at h
    simp only [digit, Bool.not_true, Bool.false_eq_true, if_false] at h
    cases beyond with
    | nil =>
      rw [floatOf_eq_ok h]
      exact .dropWhile _
    | cons d more =>
      dsimp only at h
      split at h
      · cases h
      · exact (Prod.mk.inj (Except.ok.inj h)).2 ▸ .dropWhile _

theorem exponentPart_takes (h : exponentPart negative significand exponent cs = .ok (n, rest)) :
    Takes cs rest := by
  unfold exponentPart at h
  split at h
  · rw [floatOf_eq_ok h]
    exact .refl _
  · split_ifs at h with mark
    · refine .cons ?_ (exponentTail_takes h)
      rcases mark with rfl | rfl <;> rfl
    · rw [floatOf_eq_ok h]
      exact .refl _

theorem fractionPart_takes (h : fractionPart negative significand exponent cs = .ok (n, rest)) :
    Takes cs rest := by
  unfold fractionPart at h
  simp only at h
  split_ifs at h
  · split at h <;> cases h
  · exact (Takes.dropWhile cs).trans (exponentPart_takes h)

theorem wholeNumber_eq_ok {m : Nat} (h : wholeNumber negative m cs = .ok (n, rest)) :
    rest = cs := by
  unfold wholeNumber at h
  generalize Integer.ofInt? _ = i? at h
  split_ifs at h
  · exact floatOf_eq_ok h
  · cases i? with
    | some i => exact (Prod.mk.inj (Except.ok.inj h)).2.symm
    | none => exact floatOf_eq_ok h

theorem magnitude_takes (h : magnitude negative cs = .ok (n, rest)) : Takes cs rest := by
  unfold magnitude at h
  generalize takeDigits 0 (cs.takeWhile Char.isDigit) = taken at h
  refine (Takes.dropWhile cs).trans ?_
  simp only at h
  generalize cs.dropWhile Char.isDigit = r at h ⊢
  rw [ite_eq_iff] at h
  rcases h with ⟨-, absurd⟩ | ⟨-, h⟩
  · cases absurd
  cases r with
  | nil =>
    simp only at h
    split_ifs at h
    · exact wholeNumber_eq_ok h ▸ .refl _
    · exact floatOf_eq_ok h ▸ .refl _
  | cons c r =>
    simp only at h
    split_ifs at h with point mark
    · exact .cons (by rw [point]; rfl) (fractionPart_takes h)
    · exact .cons (by rcases mark with rfl | rfl <;> rfl) (exponentTail_takes h)
    · exact wholeNumber_eq_ok h ▸ .refl _
    · exact floatOf_eq_ok h ▸ .refl _

/-- The reader takes nothing but characters of numbers for a number. -/
theorem number_takes (h : number cs = .ok (n, rest)) : Takes cs rest := by
  unfold number at h
  split at h
  · split at h
    · cases h
    · split_ifs at h
      · exact .cons rfl (magnitude_takes h)
      · cases h
  · exact magnitude_takes h

/-! ## What numbers are written with -/

/-- The text is written with characters of numbers, and not empty. -/
structure Numeric (text : List Char) : Prop where
  ne_nil : text ≠ []
  chars : ∀ c ∈ text, isNumeric c = true

theorem numeric_toDigits (n : Nat) : ∀ c ∈ Nat.toDigits 10 n, isNumeric c = true := fun _ there =>
  isNumeric_of_isDigit (Nat.isDigit_of_mem_toDigits (by decide) (by decide) there)

theorem Numeric.cons {c : Char} {text : List Char} (numeric : isNumeric c = true)
    (h : ∀ c ∈ text, isNumeric c = true) : Numeric (c :: text) :=
  ⟨List.cons_ne_nil _ _, List.forall_mem_cons.mpr ⟨numeric, h⟩⟩

theorem numeric_writeInt (n : Int) : Numeric (writeInt n) := by
  unfold writeInt
  split_ifs
  · exact .cons rfl (numeric_toDigits _)
  · exact ⟨Nat.toDigits_ne_nil, numeric_toDigits _⟩

section Floats

variable {digits : List Char}

theorem numeric_plain (h : ∀ c ∈ digits, isNumeric c = true) (first : Int) :
    Numeric (Binary64.plain digits first) := by
  have zeros (k : Nat) : ∀ c ∈ List.replicate k '0', isNumeric c = true := by
    intro c there
    rw [List.eq_of_mem_replicate there]
    rfl
  unfold Binary64.plain
  split_ifs
  · refine .cons rfl (List.forall_mem_cons.mpr ⟨rfl, List.forall_mem_append.mpr ⟨zeros _, h⟩⟩)
  · simp only
    split_ifs
    · refine ⟨by simp, ?_⟩
      simp only [List.forall_mem_append]
      exact ⟨⟨h, zeros _⟩, List.all_eq_true.mp rfl⟩
    · refine ⟨by simp, List.forall_mem_append.mpr
        ⟨fun c there => h c (List.mem_of_mem_take there), ?_⟩⟩
      exact List.forall_mem_cons.mpr ⟨rfl, fun c there => h c (List.mem_of_mem_drop there)⟩

theorem numeric_scientific (h : ∀ c ∈ digits, isNumeric c = true) (first : Int) :
    Numeric (Binary64.scientific 'e' digits first) := by
  unfold Binary64.scientific
  refine ⟨by simp, ?_⟩
  simp only [List.forall_mem_append]
  refine ⟨⟨⟨fun c there => h c (List.mem_of_mem_take there), ?_⟩, ?_⟩, numeric_toDigits _⟩
  · split_ifs
    · simp
    · exact List.forall_mem_cons.mpr ⟨rfl, fun c there => h c (List.mem_of_mem_drop there)⟩
  · split_ifs
    · exact List.all_eq_true.mp rfl
    · exact List.all_eq_true.mp rfl

theorem numeric_dropZeros (h : ∀ c ∈ digits, isNumeric c = true) (k : Int) :
    ∀ c ∈ (Binary64.dropZeros digits k).1, isNumeric c = true := by
  intro c there
  refine h c (List.mem_reverse.mp ?_)
  exact (List.dropWhile_suffix _).mem (List.mem_reverse.mp there)

theorem numeric_writeMagnitude (x : Binary64) : Numeric x.writeMagnitude := by
  obtain ⟨write, same⟩ : ∃ write, write = Binary64.writeMagnitude := ⟨_, rfl⟩
  rw [← same]
  delta Binary64.writeMagnitude at same
  rw [same]
  beta_reduce
  generalize x.shortest = decimal
  obtain ⟨d, k⟩ := decimal
  split_ifs
  · exact .cons rfl (List.all_eq_true.mp rfl)
  · have kept := numeric_dropZeros (numeric_toDigits d) k
    dsimp only
    generalize Binary64.dropZeros (Nat.toDigits 10 d) k = shown at kept ⊢
    obtain ⟨digits, k⟩ := shown
    dsimp only
    split_ifs
    · exact numeric_plain kept _
    · exact numeric_scientific kept _

end Floats

theorem numeric_writeNumber (n : Number) : Numeric (writeNumber n) := by
  cases n with
  | int n => exact numeric_writeInt n.value
  | float x =>
    rw [writeNumber, Binary64.write]
    split_ifs
    · exact .cons rfl (numeric_writeMagnitude x).chars
    · exact numeric_writeMagnitude x

end CobolDialects.Json
