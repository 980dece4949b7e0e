import CobolDialects.Proofs.Json.Spacing

/-!
# The texts of an object's members

A text is taken apart at the commas that stand in one bracket and outside of strings. All that is
looked at for this are quotes, backslashes and brackets, so it can be done to any text. Of an object
written over several lines it gives the texts of its members, from which the object's text can be
put together again.
-/

namespace CobolDialects.Json

/-! ## Taking a text apart -/

/-- Where in a text one is: outside of strings, inside of one, or behind a backslash inside of
one. -/
inductive Place where
  | plain | quoted | escaped
deriving DecidableEq

/-- A place in a text, and how many brackets are open there. -/
structure Scan where
  place : Place
  level : Nat
deriving DecidableEq

/-- Outside of strings. -/
@[match_pattern] def Scan.plain (level : Nat) : Scan := ⟨.plain, level⟩

/-- Goes on behind a character. -/
def Scan.next (s : Scan) (c : Char) : Scan :=
  match s.place with
  | .escaped => { s with place := .quoted }
  | .quoted =>
    if c = '"' then { s with place := .plain }
    else if c = '\\' then { s with place := .escaped }
    else s
  | .plain =>
    if c = '"' then { s with place := .quoted }
    else if c = '[' ∨ c = '{' then { s with level := s.level + 1 }
    else if c = ']' ∨ c = '}' then { s with level := s.level - 1 }
    else s

/-- What stands up to the next comma in the outermost bracket, and what stands between and behind
the commas from there on. What is outside of that bracket is left out, and so is the bracket. -/
def partsFrom (s : Scan) : List Char → List Char × List (List Char)
  | [] => ([], [])
  | c :: cs =>
    let (part, parts) := partsFrom (s.next c) cs
    if s = .plain 1 ∧ c = ',' then ([], part :: parts)
    else if s.level = 0 ∨ (s.next c).level = 0 then (part, parts)
    else (c :: part, parts)

/-- A text without the space around it. -/
def trim (cs : List Char) : List Char := (skipSpace (skipSpace cs).reverse).reverse

/-- The texts of the members of the object that a text is. -/
def memberTexts (text : List Char) : List (List Char) :=
  let (part, parts) := partsFrom (.plain 0) text
  ((part :: parts).map trim).filter (· ≠ [])

/-! ## What stands in one part -/

variable {s t u : Scan} {as bs cs : List Char} {c : Char} {level : Nat}

/-- From one scan to another, a text stands in one part, with all its characters. -/
def Passes (s t : Scan) (cs : List Char) : Prop :=
  ∀ rest, partsFrom s (cs ++ rest) = (cs ++ (partsFrom t rest).1, (partsFrom t rest).2)

theorem Passes.nil (s : Scan) : Passes s s [] := fun _ => rfl

theorem Passes.append (h : Passes s t as) (h' : Passes t u bs) : Passes s u (as ++ bs) := by
  intro rest
  rw [List.append_assoc, h, h', List.append_assoc]

/-- A character stands in the part unless it is a comma between parts, or a bracket around them. -/
theorem Passes.cons (inside : s.level ≠ 0) (still : (s.next c).level ≠ 0)
    (within : s = .plain 1 → c ≠ ',') (h : Passes (s.next c) t cs) : Passes s t (c :: cs) := by
  intro rest
  have apart : ¬(s = .plain 1 ∧ c = ',') := fun ⟨here, comma⟩ => within here comma
  have kept : ¬(s.level = 0 ∨ (s.next c).level = 0) := by simp [inside, still]
  rw [List.cons_append, partsFrom, h]
  simp only [if_neg apart, if_neg kept, List.cons_append]

/-- So does one behind which the scan is where it was. -/
theorem Passes.stay (stays : s.next c = s) (inside : s.level ≠ 0)
    (within : s = .plain 1 → c ≠ ',') (h : Passes s t cs) : Passes s t (c :: cs) := by
  refine .cons inside ?_ within ?_
  · rwa [stays]
  · rwa [stays]

/-- A character that a scan outside of strings passes over. -/
def Ordinary (c : Char) : Prop := c ∉ ['"', ',', '[', ']', '{', '}']

theorem passes_ordinary (h : ∀ c ∈ cs, Ordinary c) (level : Nat) :
    Passes (.plain (level + 1)) (.plain (level + 1)) cs := by
  induction cs with
  | nil => exact .nil _
  | cons c cs ih =>
    obtain ⟨quote, comma, bracket, bracket', brace, brace'⟩ : c ≠ '"' ∧ c ≠ ',' ∧ c ≠ '[' ∧
        c ≠ ']' ∧ c ≠ '{' ∧ c ≠ '}' := by simpa [Ordinary] using h c List.mem_cons_self
    refine .stay ?_ (Nat.succ_ne_zero level) (fun _ => comma) ?_
    · simp [Scan.next, Scan.plain, quote, bracket, bracket', brace, brace']
    · exact ih fun c there => h c (List.mem_cons_of_mem _ there)

theorem ordinary_of_space (h : isSpace c = true) : Ordinary c := by
  simp only [isSpace, Bool.or_eq_true, decide_eq_true_eq] at h
  rcases h with ((rfl | rfl) | rfl) | rfl <;> simp [Ordinary]

theorem ordinary_of_numeric (h : isNumeric c = true) : Ordinary c := by
  intro mark
  simp only [List.mem_cons, List.not_mem_nil, or_false] at mark
  rcases mark with rfl | rfl | rfl | rfl | rfl | rfl <;> cases h

theorem ordinary_newline (level : Nat) : ∀ c ∈ newline level, Ordinary c := by
  intro c there
  exact ordinary_of_space (Spacing.lines.gap_blank level c there)

/-! ### Strings -/

theorem passes_plain_of_quoted (quote : c ≠ '"') (backslash : c ≠ '\\') (level : Nat) :
    Passes ⟨.quoted, level + 1⟩ ⟨.quoted, level + 1⟩ [c] := by
  have stays : Scan.next ⟨.quoted, level + 1⟩ c = ⟨.quoted, level + 1⟩ := by
    simp [Scan.next, quote, backslash]
  exact .stay stays (Nat.succ_ne_zero level) nofun (.nil _)

theorem passes_backslash (e : Char) (level : Nat) :
    Passes ⟨.quoted, level + 1⟩ ⟨.quoted, level + 1⟩ ['\\', e] := by
  refine .cons (Nat.succ_ne_zero level) (Nat.succ_ne_zero level) nofun ?_
  exact .cons (Nat.succ_ne_zero level) (Nat.succ_ne_zero level) nofun (.nil _)

theorem passes_escape (c : Char) (level : Nat) :
    Passes ⟨.quoted, level + 1⟩ ⟨.quoted, level + 1⟩ (escape c) := by
  have digit : ∀ d < 16, Nat.digitChar d ≠ '"' ∧ Nat.digitChar d ≠ '\\' := by decide
  unfold escape
  split_ifs with quote backslash back feed line ret tab control
  iterate 7 exact passes_backslash _ level
  · have high := digit (c.toNat / 16) (by omega)
    have low := digit (c.toNat % 16) (by omega)
    exact (passes_backslash 'u' level).append <|
      (passes_plain_of_quoted (c := '0') (by decide) (by decide) level).append <|
      (passes_plain_of_quoted (c := '0') (by decide) (by decide) level).append <|
      (passes_plain_of_quoted high.1 high.2 level).append
        (passes_plain_of_quoted low.1 low.2 level)
  · exact passes_plain_of_quoted quote backslash level

/-- A written string stands in one part, whatever it says. -/
theorem passes_writeString (s : String) (level : Nat) :
    Passes (.plain (level + 1)) (.plain (level + 1)) (writeString s) := by
  have inside (cs : List Char) :
      Passes ⟨.quoted, level + 1⟩ ⟨.quoted, level + 1⟩ (cs.flatMap escape) := by
    induction cs with
    | nil => exact .nil _
    | cons c cs ih =>
      rw [List.flatMap_cons]
      exact (passes_escape c level).append ih
  have closing : Passes ⟨.quoted, level + 1⟩ (.plain (level + 1)) ['"'] :=
    .cons (Nat.succ_ne_zero level) (Nat.succ_ne_zero level) nofun (.nil _)
  exact .cons (Nat.succ_ne_zero level) (Nat.succ_ne_zero level) (fun _ => by decide)
    ((inside s.toList).append closing)

/-! ### Values -/

theorem passes_open (bracket : c = '[' ∨ c = '{') (h : Passes (.plain (level + 2)) t cs) :
    Passes (.plain (level + 1)) t (c :: cs) := by
  rcases bracket with rfl | rfl <;>
    exact .cons (Nat.succ_ne_zero level) (Nat.succ_ne_zero _) (fun _ => by decide) h

theorem passes_close (bracket : c = ']' ∨ c = '}') :
    Passes (.plain (level + 2)) (.plain (level + 1)) [c] := by
  rcases bracket with rfl | rfl <;>
    exact .cons (Nat.succ_ne_zero _) (Nat.succ_ne_zero _) (fun _ => by decide) (.nil _)

theorem passes_comma (h : Passes (.plain (level + 2)) t cs) :
    Passes (.plain (level + 2)) t (',' :: cs) := by
  refine .cons (Nat.succ_ne_zero _) (Nat.succ_ne_zero _) (fun here => ?_) h
  simp [Scan.plain] at here

theorem passes_colon (h : Passes (.plain (level + 1)) t cs) :
    Passes (.plain (level + 1)) t (':' :: ' ' :: cs) := by
  have ordinary : ∀ c ∈ [':', ' '], Ordinary c := by simp [Ordinary]
  exact (passes_ordinary ordinary level).append h

mutual

/-- A written value stands in one part. -/
theorem passes_pretty (level n : Nat) :
    ∀ v : Json, Passes (.plain (n + 1)) (.plain (n + 1)) (v.pretty level)
  | .null | .bool true | .bool false => passes_ordinary (by simp [pretty, Ordinary]) n
  | .num x => passes_ordinary (fun c there =>
      ordinary_of_numeric ((numeric_writeNumber x).chars c there)) n
  | .str s => passes_writeString s n
  | .arr [] => passes_open (.inl rfl) (passes_close (.inl rfl))
  | .obj [] => passes_open (.inr rfl) (passes_close (.inr rfl))
  | .arr (v :: rest) => by
    rw [pretty]
    exact passes_open (.inl rfl) <| (passes_ordinary (ordinary_newline _) (n + 1)).append <|
      (passes_pretty (level + 1) (n + 1) v).append (passes_prettyItems level n rest)
  | .obj ((name, v) :: rest) => by
    rw [pretty]
    exact passes_open (.inr rfl) <| (passes_ordinary (ordinary_newline _) (n + 1)).append <|
      (passes_writeString name (n + 1)).append <| passes_colon <|
      (passes_pretty (level + 1) (n + 1) v).append (passes_prettyMembers level n rest)

theorem passes_prettyItems (level n : Nat) : ∀ items : List Json,
    Passes (.plain (n + 2)) (.plain (n + 1)) (prettyItems level items)
  | [] => (passes_ordinary (ordinary_newline _) (n + 1)).append (passes_close (.inl rfl))
  | v :: rest => by
    rw [prettyItems]
    exact passes_comma <| (passes_ordinary (ordinary_newline _) (n + 1)).append <|
      (passes_pretty (level + 1) (n + 1) v).append (passes_prettyItems level n rest)

theorem passes_prettyMembers (level n : Nat) : ∀ ms : Members,
    Passes (.plain (n + 2)) (.plain (n + 1)) (prettyMembers level ms)
  | [] => (passes_ordinary (ordinary_newline _) (n + 1)).append (passes_close (.inr rfl))
  | (name, v) :: rest => by
    rw [prettyMembers]
    exact passes_comma <| (passes_ordinary (ordinary_newline _) (n + 1)).append <|
      (passes_writeString name (n + 1)).append <| passes_colon <|
      (passes_pretty (level + 1) (n + 1) v).append (passes_prettyMembers level n rest)

end

/-! ## Trimming -/

/-- A text that neither begins nor ends with space. -/
def Tight (cs : List Char) : Prop :=
  (∃ c rest, cs = c :: rest ∧ isSpace c = false) ∧ ∃ front c, cs = front ++ [c] ∧ isSpace c = false

theorem trim_of_tight (h : Tight cs) {before after : List Char}
    (blank : ∀ c ∈ before, isSpace c = true) (blank' : ∀ c ∈ after, isSpace c = true) :
    trim (before ++ (cs ++ after)) = cs := by
  obtain ⟨⟨c, rest, begins, first⟩, front, d, ends, last⟩ := h
  have ahead : skipSpace (cs ++ after) = cs ++ after := by
    rw [begins, List.cons_append]
    exact skipSpace_of_not_space first _
  have behind : skipSpace (after.reverse ++ cs.reverse) = cs.reverse := by
    rw [skipSpace_blank (by simpa using blank'), ends, List.reverse_append, List.reverse_singleton,
      List.singleton_append]
    exact skipSpace_of_not_space last _
  rw [trim, skipSpace_blank blank, ahead, List.reverse_append, behind, List.reverse_reverse]

mutual

/-- A written value ends with something else than space. -/
theorem exists_pretty_end (level : Nat) :
    ∀ v : Json, ∃ front c, v.pretty level = front ++ [c] ∧ isSpace c = false
  | .null => ⟨['n', 'u', 'l'], 'l', rfl, by decide⟩
  | .bool true => ⟨['t', 'r', 'u'], 'e', rfl, by decide⟩
  | .bool false => ⟨['f', 'a', 'l', 's'], 'e', rfl, by decide⟩
  | .num x => by
    have numeric := numeric_writeNumber x
    obtain ⟨front, c, written⟩ := List.eq_nil_or_concat _ |>.resolve_left numeric.ne_nil
    rw [List.concat_eq_append] at written
    exact ⟨front, c, written, (not_space_of_numeric (numeric.chars c (by simp [written]))).1⟩
  | .str s => ⟨'"' :: s.toList.flatMap escape, '"', rfl, by decide⟩
  | .arr [] => ⟨['['], ']', rfl, by decide⟩
  | .obj [] => ⟨['{'], '}', rfl, by decide⟩
  | .arr (v :: rest) => by
    obtain ⟨front, ends⟩ := exists_prettyItems_end level rest
    refine ⟨'[' :: (newline (level + 1) ++ (v.pretty (level + 1) ++ front)), ']', ?_, by decide⟩
    rw [pretty, ends]
    simp
  | .obj ((name, v) :: rest) => by
    obtain ⟨front, ends⟩ := exists_prettyMembers_end level rest
    refine ⟨'{' :: (newline (level + 1) ++ (writeString name ++ ':' :: ' ' ::
      (v.pretty (level + 1) ++ front))), '}', ?_, by decide⟩
    rw [pretty, ends]
    simp

theorem exists_prettyItems_end (level : Nat) :
    ∀ items : List Json, ∃ front, prettyItems level items = front ++ [']']
  | [] => ⟨newline level, rfl⟩
  | v :: rest => by
    obtain ⟨front, ends⟩ := exists_prettyItems_end level rest
    refine ⟨',' :: (newline (level + 1) ++ (v.pretty (level + 1) ++ front)), ?_⟩
    rw [prettyItems, ends]
    simp

theorem exists_prettyMembers_end (level : Nat) :
    ∀ ms : Members, ∃ front, prettyMembers level ms = front ++ ['}']
  | [] => ⟨newline level, rfl⟩
  | (name, v) :: rest => by
    obtain ⟨front, ends⟩ := exists_prettyMembers_end level rest
    refine ⟨',' :: (newline (level + 1) ++ (writeString name ++ ':' :: ' ' ::
      (v.pretty (level + 1) ++ front))), ?_⟩
    rw [prettyMembers, ends]
    simp

end

/-! ## The members of an object -/

/-- The text of a member of an object that is written over several lines and stands alone. -/
def memberText (m : String × Json) : List Char := writeString m.1 ++ ':' :: ' ' :: m.2.pretty 1

/-- The text of an object from the texts of its members. -/
def objectText : List (List Char) → List Char
  | [] => ['{', '}']
  | part :: parts =>
    '{' :: (newline 1 ++ part ++ parts.flatMap (',' :: newline 1 ++ ·) ++ newline 0 ++ ['}'])

/-- The text belongs to a member of the name. -/
def IsMember (name : String) (text : List Char) : Prop :=
  ∃ value, text = writeString name ++ ':' :: ' ' :: value

theorem isMember_memberText {name : String} {m : String × Json} :
    IsMember name (memberText m) ↔ m.1 = name := by
  constructor
  · rintro ⟨value, same⟩
    obtain ⟨tail, written, read⟩ := exists_writeString m.1
    obtain ⟨tail', written', read'⟩ := exists_writeString name
    rw [memberText, written, written', List.cons_append, List.cons_append, List.cons.injEq] at same
    have one := read (':' :: ' ' :: m.2.pretty 1)
    rw [same.2, read'] at one
    exact (String.toList_inj.mp (Prod.mk.inj (Except.ok.inj one)).1).symm
  · rintro rfl
    exact ⟨_, rfl⟩

theorem passes_memberText (m : String × Json) :
    Passes (.plain 1) (.plain 1) (memberText m) :=
  (passes_writeString m.1 0).append (passes_colon (passes_pretty 1 0 m.2))

theorem tight_memberText (m : String × Json) : Tight (memberText m) := by
  refine ⟨⟨'"', _, rfl, by decide⟩, ?_⟩
  obtain ⟨front, c, ends, last⟩ := exists_pretty_end 1 m.2
  exact ⟨writeString m.1 ++ ':' :: ' ' :: front, c, by simp [memberText, ends], last⟩

theorem memberText_ne_nil (m : String × Json) : memberText m ≠ [] := by
  simp [memberText, writeString]

/-- On its line and with the line break behind it, the member is found. -/
theorem trim_line (m : String × Json) {after : List Char} (blank : ∀ c ∈ after, isSpace c = true) :
    trim (newline 1 ++ memberText m ++ after) = memberText m := by
  rw [List.append_assoc]
  exact trim_of_tight (tight_memberText m) (Spacing.lines.gap_blank 1) blank

theorem passes_line (m : String × Json) :
    Passes (.plain 1) (.plain 1) (newline 1 ++ memberText m) :=
  (passes_ordinary (ordinary_newline 1) 0).append (passes_memberText m)

theorem prettyMembers_eq (ms : Members) : prettyMembers 0 ms =
    (ms.map memberText).flatMap (',' :: newline 1 ++ ·) ++ newline 0 ++ ['}'] := by
  induction ms with
  | nil => rfl
  | cons m ms ih =>
    rw [prettyMembers, ih]
    simp [memberText]

/-- An object is put together from the texts of its members. -/
theorem pretty_obj (ms : Members) : (Json.obj ms).pretty 0 = objectText (ms.map memberText) := by
  cases ms with
  | nil => rfl
  | cons m ms =>
    rw [pretty, prettyMembers_eq]
    simp [memberText, objectText]

theorem partsFrom_comma (cs : List Char) : partsFrom (.plain 1) (',' :: cs) =
    ([], (partsFrom (.plain 1) cs).1 :: (partsFrom (.plain 1) cs).2) := by
  simp [partsFrom, Scan.next, Scan.plain]

/-- Behind a member there is nothing but space up to the comma, and then there are the parts of the
other members. -/
theorem partsFrom_prettyMembers (ms : Members) :
    (∀ c ∈ (partsFrom (.plain 1) (prettyMembers 0 ms ++ ['\n'])).1, isSpace c = true) ∧
      (partsFrom (.plain 1) (prettyMembers 0 ms ++ ['\n'])).2.map trim = ms.map memberText := by
  induction ms with
  | nil =>
    have rest : partsFrom (.plain 1) (prettyMembers 0 [] ++ ['\n']) = (['\n'], []) := rfl
    rw [rest]
    exact ⟨List.forall_mem_singleton.mpr (by decide), rfl⟩
  | cons m ms ih =>
    obtain ⟨blank, others⟩ := ih
    have written : prettyMembers 0 (m :: ms) ++ ['\n'] =
        ',' :: (newline 1 ++ memberText m ++ (prettyMembers 0 ms ++ ['\n'])) := by
      simp [prettyMembers, memberText]
    rw [written, partsFrom_comma, passes_line m]
    refine ⟨by simp, ?_⟩
    rw [List.map_cons, List.map_cons, others, trim_line m blank]

/-- Taken apart, an object that is written over several lines gives the texts of its members. -/
theorem memberTexts_pretty (ms : Members) :
    memberTexts ((Json.obj ms).pretty 0 ++ ['\n']) = ms.map memberText := by
  cases ms with
  | nil => decide
  | cons m ms =>
    obtain ⟨blank, others⟩ := partsFrom_prettyMembers ms
    have written : (Json.obj (m :: ms)).pretty 0 ++ ['\n'] =
        '{' :: (newline 1 ++ memberText m ++ (prettyMembers 0 ms ++ ['\n'])) := by
      simp [pretty, memberText]
    have brace (cs : List Char) : partsFrom (.plain 0) ('{' :: cs) = partsFrom (.plain 1) cs := by
      simp [partsFrom, Scan.next, Scan.plain]
    have some : ∀ part ∈ (m :: ms).map memberText, decide (part ≠ []) = true := by
      intro part there
      obtain ⟨n, -, rfl⟩ := List.mem_map.mp there
      exact decide_eq_true (memberText_ne_nil n)
    rw [memberTexts, written, brace, passes_line m]
    simp only [List.map_cons, others, trim_line m blank]
    exact List.filter_eq_self.mpr some

end CobolDialects.Json
