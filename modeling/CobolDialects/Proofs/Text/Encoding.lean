import CobolDialects.Text.Utf8
import Mathlib.Tactic.Common

/-!
# Encoding and decoding texts

The bytes of a character are read back as one piece, whatever follows them, so decoding undoes
encoding and two texts never have the same bytes.
-/

namespace CobolDialects

namespace Utf8

/-! ## First bytes -/

theorem lead_ascii {a : UInt8} (h : a.toNat < 0x80) : Lead.of a = .ascii := by
  simp [Lead.of, UInt8.lt_iff_toNat_lt, h]

theorem lead_two {a : UInt8} (low : 0xC2 ≤ a.toNat) (high : a.toNat < 0xE0) :
    Lead.of a = .two := by
  simp only [Lead.of, UInt8.lt_iff_toNat_lt, UInt8.reduceToNat]
  rw [if_neg (by omega), if_neg (by omega), if_pos high]

/-- Of three bytes the second one is neither too small for the first, nor that of a surrogate. -/
theorem lead_three {a b : UInt8} (low : 0xE0 ≤ a.toNat) (high : a.toNat < 0xF0)
    (tail : 0x80 ≤ b.toNat ∧ b.toNat ≤ 0xBF) (overlong : a.toNat = 0xE0 → 0xA0 ≤ b.toNat)
    (surrogate : a.toNat = 0xED → b.toNat ≤ 0x9F) :
    ∃ low high, Lead.of a = .three low high ∧ (low ≤ b && b ≤ high) = true := by
  simp only [Lead.of, UInt8.lt_iff_toNat_lt, ← UInt8.toNat_inj, UInt8.reduceToNat,
    Bool.and_eq_true, decide_eq_true_eq, UInt8.le_iff_toNat_le]
  rw [if_neg (by omega), if_neg (by omega), if_neg (by omega)]
  by_cases first : a.toNat = 0xE0
  · exact ⟨0xA0, 0xBF, by rw [if_pos first], overlong first, tail.2⟩
  by_cases middle : a.toNat = 0xED
  · exact ⟨0x80, 0x9F, by rw [if_neg first, if_pos middle], tail.1, surrogate middle⟩
  · exact ⟨0x80, 0xBF, by rw [if_neg first, if_neg middle, if_pos high], tail.1, tail.2⟩

/-- Of four bytes the second one is neither too small for the first, nor beyond the last code
point. -/
theorem lead_four {a b : UInt8} (low : 0xF0 ≤ a.toNat) (high : a.toNat ≤ 0xF4)
    (tail : 0x80 ≤ b.toNat ∧ b.toNat ≤ 0xBF) (overlong : a.toNat = 0xF0 → 0x90 ≤ b.toNat)
    (beyond : a.toNat = 0xF4 → b.toNat ≤ 0x8F) :
    ∃ low high, Lead.of a = .four low high ∧ (low ≤ b && b ≤ high) = true := by
  simp only [Lead.of, UInt8.lt_iff_toNat_lt, ← UInt8.toNat_inj, UInt8.reduceToNat,
    Bool.and_eq_true, decide_eq_true_eq, UInt8.le_iff_toNat_le]
  rw [if_neg (by omega), if_neg (by omega), if_neg (by omega), if_neg (by omega),
    if_neg (by omega), if_neg (by omega)]
  by_cases first : a.toNat = 0xF0
  · exact ⟨0x90, 0xBF, by rw [if_pos first], overlong first, tail.2⟩
  by_cases last : a.toNat = 0xF4
  · exact ⟨0x80, 0x8F, by rw [if_neg first, if_neg (by omega), if_pos last], tail.1, beyond last⟩
  · exact ⟨0x80, 0xBF, by rw [if_neg first, if_pos (by omega)], tail.1, tail.2⟩

theorem isTail_of_bounds {b : UInt8} (h : 0x80 ≤ b.toNat ∧ b.toNat ≤ 0xBF) : isTail b = true := by
  simpa [isTail, UInt8.le_iff_toNat_le] using h

/-! ## Characters -/

theorem ofNat_eq {c : Char} {n : Nat} (h : n = c.toNat) : Char.ofNat n = c := by
  rw [h, Char.ofNat_toNat]

/-- A code point lies below the surrogates or between them and the end. -/
theorem toNat_bounds (c : Char) :
    c.toNat < 0xD800 ∨ 0xDFFF < c.toNat ∧ c.toNat < 0x110000 := c.valid

/-- An encoded character is read as one piece. -/
theorem pieces_encodeChar (c : Char) (rest : Bytes) :
    pieces (String.utf8EncodeChar c ++ rest) = .char c :: pieces rest := by
  have bounds := toNat_bounds c
  have byte {n : Nat} (h : n < 256) : (UInt8.ofNat n).toNat = n := by simp [h]
  simp only [String.utf8EncodeChar, Char.toNat_val]
  generalize code : c.toNat = v at bounds
  split_ifs with one two three
  · have first := byte (n := v) (by omega)
    simp only [List.cons_append, List.nil_append]
    rw [pieces.eq_def]
    simp only [lead_ascii (a := UInt8.ofNat v) (by omega), first, ofNat_eq code.symm]
  · have first := byte (n := v / 64 % 32 + 192) (by omega)
    have second := byte (n := v % 64 + 128) (by omega)
    simp only [List.cons_append, List.nil_append]
    rw [pieces.eq_def]
    simp only [lead_two (a := UInt8.ofNat (v / 64 % 32 + 192)) (by omega) (by omega)]
    rw [if_pos (isTail_of_bounds (by omega)), char2, ofNat_eq (c := c) (by omega)]
  · have first := byte (n := v / 4096 % 16 + 224) (by omega)
    have second := byte (n := v / 64 % 64 + 128) (by omega)
    have third := byte (n := v % 64 + 128) (by omega)
    obtain ⟨low, high, lead, inside⟩ :=
      lead_three (a := UInt8.ofNat (v / 4096 % 16 + 224)) (b := UInt8.ofNat (v / 64 % 64 + 128))
        (by omega) (by omega) (by omega) (by omega) (by omega)
    simp only [List.cons_append, List.nil_append]
    rw [pieces.eq_def]
    simp only [lead, inside, if_true]
    rw [if_pos (isTail_of_bounds (by omega)), char3, ofNat_eq (c := c) (by omega)]
  · have first := byte (n := v / 262144 % 8 + 240) (by omega)
    have second := byte (n := v / 4096 % 64 + 128) (by omega)
    have third := byte (n := v / 64 % 64 + 128) (by omega)
    have fourth := byte (n := v % 64 + 128) (by omega)
    obtain ⟨low, high, lead, inside⟩ :=
      lead_four (a := UInt8.ofNat (v / 262144 % 8 + 240)) (b := UInt8.ofNat (v / 4096 % 64 + 128))
        (by omega) (by omega) (by omega) (by omega) (by omega)
    simp only [List.cons_append, List.nil_append]
    rw [pieces.eq_def]
    simp only [lead, inside, if_true]
    rw [if_pos (isTail_of_bounds (by omega)), if_pos (isTail_of_bounds (by omega)), char4,
      ofNat_eq (c := c) (by omega)]

/-! ## Texts -/

theorem pieces_encode (s : List Char) : pieces (encode s) = s.map .char := by
  induction s with
  | nil => simp [encode, pieces]
  | cons c s ih => rw [encode, List.flatMap_cons, pieces_encodeChar, List.map_cons, ← ih, encode]

theorem collect_char (s : List Char) (index : Nat) : collect index (s.map .char) = .ok s := by
  induction s generalizing index with
  | nil => rfl
  | cons c s ih => simp [collect, ih, Except.map]

/-- Decoding undoes encoding. -/
@[simp] theorem decode_encode (s : List Char) : decode (encode s) = .ok s := by
  rw [decode, pieces_encode, collect_char]

end Utf8

@[simp] theorem textOf?_bytesOf (s : String) : textOf? (bytesOf s) = some s := by
  simp [textOf?, bytesOf, Except.toOption]

theorem bytesOf_injective {s t : String} (h : bytesOf s = bytesOf t) : s = t := by
  have texts := congrArg textOf? h
  simpa using texts

end CobolDialects
