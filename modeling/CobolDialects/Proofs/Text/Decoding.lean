import CobolDialects.Proofs.Text.Encoding

/-!
# What is decoded

Each piece that is a character was read from the bytes of that character. So a byte string that
decodes is the encoding of what it decodes to, and those that do not decode are the bytes of no
text.
-/

namespace CobolDialects

namespace Utf8

/-! ## First bytes -/

theorem bounds_of_ascii {a : UInt8} (h : Lead.of a = .ascii) : a.toNat < 0x80 := by
  unfold Lead.of at h
  split_ifs at h with low
  simpa [UInt8.lt_iff_toNat_lt] using low

theorem bounds_of_two {a : UInt8} (h : Lead.of a = .two) : 0xC2 ≤ a.toNat ∧ a.toNat < 0xE0 := by
  unfold Lead.of at h
  split_ifs at h with _ low high
  simp only [UInt8.lt_iff_toNat_lt, UInt8.reduceToNat] at low high
  omega

/-- The second byte of three makes no overlong form and no surrogate. -/
theorem bounds_of_three {a b low high : UInt8} (h : Lead.of a = .three low high)
    (inside : (low ≤ b && b ≤ high) = true) :
    0xE0 ≤ a.toNat ∧ a.toNat < 0xF0 ∧ 0x80 ≤ b.toNat ∧ b.toNat ≤ 0xBF ∧
      (a.toNat = 0xE0 → 0xA0 ≤ b.toNat) ∧ (a.toNat = 0xED → b.toNat ≤ 0x9F) := by
  unfold Lead.of at h
  simp only [UInt8.lt_iff_toNat_lt, ← UInt8.toNat_inj, UInt8.reduceToNat] at h
  split_ifs at h <;> obtain ⟨rfl, rfl⟩ := Lead.three.inj h <;>
    simp only [Bool.and_eq_true, decide_eq_true_eq, UInt8.le_iff_toNat_le,
      UInt8.reduceToNat] at inside <;> omega

/-- The second byte of four makes no overlong form and nothing beyond the last code point. -/
theorem bounds_of_four {a b low high : UInt8} (h : Lead.of a = .four low high)
    (inside : (low ≤ b && b ≤ high) = true) :
    0xF0 ≤ a.toNat ∧ a.toNat ≤ 0xF4 ∧ 0x80 ≤ b.toNat ∧ b.toNat ≤ 0xBF ∧
      (a.toNat = 0xF0 → 0x90 ≤ b.toNat) ∧ (a.toNat = 0xF4 → b.toNat ≤ 0x8F) := by
  unfold Lead.of at h
  simp only [UInt8.lt_iff_toNat_lt, ← UInt8.toNat_inj, UInt8.reduceToNat] at h
  split_ifs at h <;> obtain ⟨rfl, rfl⟩ := Lead.four.inj h <;>
    simp only [Bool.and_eq_true, decide_eq_true_eq, UInt8.le_iff_toNat_le,
      UInt8.reduceToNat] at inside <;> omega

theorem bounds_of_isTail {b : UInt8} (h : isTail b = true) : 0x80 ≤ b.toNat ∧ b.toNat ≤ 0xBF := by
  simpa [isTail, UInt8.le_iff_toNat_le] using h

/-! ## Characters -/

theorem toNat_ofNat {n : Nat} (h : n.isValidChar) : (Char.ofNat n).toNat = n := by
  rw [Char.ofNat, dif_pos h]
  rfl

theorem ofNat_eq_of_toNat {n : Nat} {a : UInt8} (h : n = a.toNat) : UInt8.ofNat n = a := by
  rw [h, UInt8.ofNat_toNat]

theorem encodeChar_ascii {a : UInt8} (h : a.toNat < 0x80) :
    String.utf8EncodeChar (Char.ofNat a.toNat) = [a] := by
  simp only [String.utf8EncodeChar, Char.toNat_val, toNat_ofNat (n := a.toNat) (by omega)]
  rw [if_pos (by omega), ofNat_eq_of_toNat rfl]

theorem encodeChar_char2 {a b : UInt8} (first : 0xC2 ≤ a.toNat ∧ a.toNat < 0xE0)
    (second : 0x80 ≤ b.toNat ∧ b.toNat ≤ 0xBF) : String.utf8EncodeChar (char2 a b) = [a, b] := by
  have valid : ((a.toNat - 0xC0) * 64 + (b.toNat - 0x80)).isValidChar := by omega
  simp only [String.utf8EncodeChar, Char.toNat_val, char2, toNat_ofNat valid]
  rw [if_neg (by omega), if_pos (by omega), ofNat_eq_of_toNat (a := a) (by omega),
    ofNat_eq_of_toNat (a := b) (by omega)]

theorem encodeChar_char3 {a b c : UInt8}
    (first : 0xE0 ≤ a.toNat ∧ a.toNat < 0xF0 ∧ 0x80 ≤ b.toNat ∧ b.toNat ≤ 0xBF ∧
      (a.toNat = 0xE0 → 0xA0 ≤ b.toNat) ∧ (a.toNat = 0xED → b.toNat ≤ 0x9F))
    (third : 0x80 ≤ c.toNat ∧ c.toNat ≤ 0xBF) :
    String.utf8EncodeChar (char3 a b c) = [a, b, c] := by
  have valid :
      (((a.toNat - 0xE0) * 64 + (b.toNat - 0x80)) * 64 + (c.toNat - 0x80)).isValidChar := by
    omega
  simp only [String.utf8EncodeChar, Char.toNat_val, char3, toNat_ofNat valid]
  rw [if_neg (by omega), if_neg (by omega), if_pos (by omega),
    ofNat_eq_of_toNat (a := a) (by omega), ofNat_eq_of_toNat (a := b) (by omega),
    ofNat_eq_of_toNat (a := c) (by omega)]

theorem encodeChar_char4 {a b c d : UInt8}
    (first : 0xF0 ≤ a.toNat ∧ a.toNat ≤ 0xF4 ∧ 0x80 ≤ b.toNat ∧ b.toNat ≤ 0xBF ∧
      (a.toNat = 0xF0 → 0x90 ≤ b.toNat) ∧ (a.toNat = 0xF4 → b.toNat ≤ 0x8F))
    (third : 0x80 ≤ c.toNat ∧ c.toNat ≤ 0xBF) (fourth : 0x80 ≤ d.toNat ∧ d.toNat ≤ 0xBF) :
    String.utf8EncodeChar (char4 a b c d) = [a, b, c, d] := by
  have valid : ((((a.toNat - 0xF0) * 64 + (b.toNat - 0x80)) * 64 + (c.toNat - 0x80)) * 64
      + (d.toNat - 0x80)).isValidChar := by omega
  simp only [String.utf8EncodeChar, Char.toNat_val, char4, toNat_ofNat valid]
  rw [if_neg (by omega), if_neg (by omega), if_neg (by omega),
    ofNat_eq_of_toNat (a := a) (by omega), ofNat_eq_of_toNat (a := b) (by omega),
    ofNat_eq_of_toNat (a := c) (by omega), ofNat_eq_of_toNat (a := d) (by omega)]

/-! ## Texts -/

/-- A character behind which the rest is encoded. -/
theorem encode_cons_eq {c : Char} {s : List Char} {front back : Bytes}
    (character : String.utf8EncodeChar c = front) (rest : encode s = back) :
    encode (c :: s) = front ++ back := by
  rw [encode, List.flatMap_cons, character, ← encode, rest]

/-- Bytes whose pieces are all characters are the bytes of these characters. -/
theorem encode_of_pieces {bytes : Bytes} {s : List Char} (h : pieces bytes = s.map .char) :
    encode s = bytes := by
  have uncons {c : Char} {tail : List Piece} {s : List Char} (h : .char c :: tail = s.map .char) :
      ∃ s', s = c :: s' ∧ tail = s'.map .char := by
    obtain ⟨c', s', rfl, same, rest⟩ := List.map_eq_cons_iff.mp h.symm
    cases same
    exact ⟨s', rfl, rest.symm⟩
  fun_induction pieces bytes generalizing s with
  | case1 => simp_all [encode]
  | case2 a r lead ih =>
    obtain ⟨s, rfl, rest⟩ := uncons h
    exact encode_cons_eq (encodeChar_ascii (bounds_of_ascii lead)) (ih rest)
  | case5 a lead b r tail ih =>
    obtain ⟨s, rfl, rest⟩ := uncons h
    exact encode_cons_eq (encodeChar_char2 (bounds_of_two lead) (bounds_of_isTail tail)) (ih rest)
  | case9 a low high lead b inside c r tail ih =>
    obtain ⟨s, rfl, rest⟩ := uncons h
    exact encode_cons_eq
      (encodeChar_char3 (bounds_of_three lead inside) (bounds_of_isTail tail)) (ih rest)
  | case15 a low high lead b inside c third d r fourth ih =>
    obtain ⟨s, rfl, rest⟩ := uncons h
    exact encode_cons_eq (encodeChar_char4 (bounds_of_four lead inside) (bounds_of_isTail third)
      (bounds_of_isTail fourth)) (ih rest)
  | _ => cases s <;> simp at h

theorem pieces_of_collect {index : Nat} {ps : List Piece} {s : List Char}
    (h : collect index ps = .ok s) : ps = s.map .char := by
  induction ps generalizing index s with
  | nil =>
    obtain rfl := Except.ok.inj h
    rfl
  | cons p ps ih =>
    cases p with
    | broken bytes cut => cases h
    | char c =>
      rw [collect] at h
      cases rest : collect (index + c.utf8Size) ps with
      | error e => simp [rest, Except.map] at h
      | ok s' =>
        obtain rfl : c :: s' = s := by simpa [rest, Except.map] using h
        rw [ih rest, List.map_cons]

/-- Decoding comes to a text if the bytes are those of the text. -/
theorem decode_eq_ok {bytes : Bytes} {s : List Char} : decode bytes = .ok s ↔ encode s = bytes :=
  ⟨fun h => encode_of_pieces (pieces_of_collect h), fun h => h ▸ decode_encode s⟩

end Utf8

theorem textOf?_eq_some {bytes : Bytes} {text : String} :
    textOf? bytes = some text ↔ bytesOf text = bytes := by
  refine ⟨fun h => ?_, fun h => h ▸ textOf?_bytesOf text⟩
  cases decoded : Utf8.decode bytes with
  | error e => simp [textOf?, decoded, Except.toOption] at h
  | ok s =>
    obtain rfl : String.ofList s = text := by simpa [textOf?, decoded, Except.toOption] using h
    rw [bytesOf, String.toList_ofList]
    exact Utf8.decode_eq_ok.mp decoded

theorem textOf?_eq_none {bytes : Bytes} : textOf? bytes = none ↔ ∀ text, bytesOf text ≠ bytes := by
  simp [Option.eq_none_iff_forall_ne_some, textOf?_eq_some]

end CobolDialects
