import CobolDialects.Proofs.Json.RoundTrip

/-!
# Written values that are nested too deep

Floating-point numbers may be read as other numbers than were written, or not at all. But whatever
numbers there are in a written value, it is not read by a reader that goes less deep than it is
nested.
-/

namespace CobolDialects.Json

variable {sp : Spacing} {level fuel depth : Nat} {text rest : List Char}

/-- If a text is read, and no character of a number remains, then it is read up to `rest`, by a
reader that goes down that many levels. -/
def Through {α : Type} (levels : Nat) (rest : List Char) (depth : Nat) (read : Reading α) : Prop :=
  ∀ r, read = .ok r → Apart r.2 → levels ≤ depth ∧ r.2 = rest

/-- A written value is read as a whole, if it is read, by a reader that goes as deep as it is
nested. -/
def ReadThrough (sp : Spacing) (v : Json) : Prop :=
  ∀ level fuel depth rest, Apart rest →
    Through v.depth rest depth (value fuel depth (v.spaced sp level ++ rest))

/-! ## Lists -/

section Lists

variable {α : Type} {close d : Char} {last : Json → α} {join : Json → α → α}
  {parse : List Char → Reading α} {behind gap u : List Char} {levels moreLevels : Nat}
  {r : α × List Char}

/-- A list is read up to its end by reading its last value. -/
theorem through_last (ne : close ≠ ',') (closing : isNumeric close = false)
    (first : Through levels behind depth (value fuel depth text))
    (ends : skipSpace behind = close :: rest)
    (read : ∃ w s, value fuel depth text = .ok (w, s) ∧
      ((∃ t, skipSpace s = close :: t ∧ (last w, t) = r) ∨
        ∃ t d u q, skipSpace s = ',' :: t ∧ skipSpace t = d :: u ∧ d ≠ close ∧
          parse (d :: u) = .ok q ∧ (join w q.1, q.2) = r)) :
    levels ≤ depth ∧ r.2 = rest := by
  obtain ⟨w, s, value, ⟨t, close, rfl⟩ | ⟨t, d, u, q, comma, -⟩⟩ := read
  · obtain ⟨fits, rfl⟩ := first _ value (apart_of_skipSpace close closing)
    exact ⟨fits, (List.cons.inj (close.symm.trans ends)).2⟩
  · obtain ⟨-, rfl⟩ := first _ value (apart_of_skipSpace comma rfl)
    exact absurd (List.cons.inj (ends.symm.trans comma)).1 ne

/-- A list is read up to its end by reading its first value and the others. -/
theorem through_more (ne : close ≠ ',') (closing : isNumeric close = false)
    (first : Through levels behind depth (value fuel depth text))
    (comma : skipSpace behind = ',' :: gap) (next : skipSpace gap = d :: u)
    (more : ∀ q, parse (d :: u) = .ok q → moreLevels ≤ depth ∧ q.2 = rest)
    (read : ∃ w s, value fuel depth text = .ok (w, s) ∧
      ((∃ t, skipSpace s = close :: t ∧ (last w, t) = r) ∨
        ∃ t d u q, skipSpace s = ',' :: t ∧ skipSpace t = d :: u ∧ d ≠ close ∧
          parse (d :: u) = .ok q ∧ (join w q.1, q.2) = r)) :
    (levels ≤ depth ∧ moreLevels ≤ depth) ∧ r.2 = rest := by
  obtain ⟨w, s, value, ⟨t, close, -⟩ | ⟨t, d', u', q, separated, head, -, others, rfl⟩⟩ := read
  · obtain ⟨-, rfl⟩ := first _ value (apart_of_skipSpace close closing)
    exact absurd (List.cons.inj (close.symm.trans comma)).1 ne
  · obtain ⟨fits, rfl⟩ := first _ value (apart_of_skipSpace separated rfl)
    obtain rfl := (List.cons.inj (comma.symm.trans separated)).2
    rw [← next.symm.trans head] at others
    obtain ⟨moreFit, same⟩ := more _ others
    exact ⟨⟨fits, moreFit⟩, same⟩

end Lists

theorem items_through {v : Json} {vs : List Json} (through : ∀ w ∈ v :: vs, w.ReadThrough sp)
    {fuel : Nat} {r : List Json × List Char}
    (read : items fuel depth (v.spaced sp (level + 1) ++ (spacedItems sp level vs ++ rest)) =
      .ok r) : depthItems (v :: vs) ≤ depth ∧ r.2 = rest := by
  induction vs generalizing v fuel r with
  | nil =>
    cases fuel with
    | zero => simp [items, failAt] at read
    | succ fuel =>
      have first := through v List.mem_cons_self (level + 1) fuel depth _
        (apart_spacedItems sp level rest [])
      rw [depthItems_cons_le]
      exact (through_last (by decide) rfl first (skipSpace_spacedItems_nil sp level rest)
        (items_eq_ok.mp read)).imp_left fun fits => ⟨fits, Nat.zero_le _⟩
  | cons w vs ih =>
    cases fuel with
    | zero => simp [items, failAt] at read
    | succ fuel =>
      obtain ⟨c, tail, begins, noSpace, -⟩ :=
        skipSpace_spaced w sp (level + 1) (spacedItems sp level vs ++ rest)
      have comma := skipSpace_spacedItems_cons sp level rest w vs
      have next : skipSpace (sp.gap (level + 1) ++ (c :: tail)) = c :: tail := by
        rw [skipSpace_blank (sp.gap_blank _), noSpace]
      have more := @ih w (fun x there => through x (List.mem_cons_of_mem _ there)) fuel
      have first := through v List.mem_cons_self (level + 1) fuel depth _
        (apart_spacedItems sp level rest (w :: vs))
      rw [begins] at comma more
      rw [depthItems_cons_le]
      exact through_more (by decide) rfl first comma next (fun _ => more) (items_eq_ok.mp read)

theorem members_through {name : String} {v : Json} {ms : Members}
    (through : ∀ m ∈ (name, v) :: ms, m.2.ReadThrough sp) {fuel : Nat} {r : Members × List Char}
    (read : members fuel depth (writeString name ++ ':' :: (sp.colon ++
      (v.spaced sp (level + 1) ++ (spacedMembers sp level ms ++ rest)))) = .ok r) :
    depthMembers ((name, v) :: ms) ≤ depth ∧ r.2 = rest := by
  induction ms generalizing name v fuel r with
  | nil =>
    cases fuel with
    | zero => simp [members, failAt] at read
    | succ fuel =>
      have whole : v.ReadThrough sp := through (name, v) List.mem_cons_self
      have first := whole (level + 1) fuel depth _ (apart_spacedMembers sp level rest [])
      simp only [members_writeString, value_blank sp.colon_blank] at read
      rw [depthMembers_cons_le]
      exact (through_last (by decide) rfl first (skipSpace_spacedMembers_nil sp level rest)
        read).imp_left fun fits => ⟨fits, Nat.zero_le _⟩
  | cons m ms ih =>
    obtain ⟨other, w⟩ := m
    cases fuel with
    | zero => simp [members, failAt] at read
    | succ fuel =>
      obtain ⟨tail, written, -⟩ := exists_writeString other
      have comma := skipSpace_spacedMembers_cons sp level rest other w ms
      have next := skipSpace_blank (sp.gap_blank (level + 1)) (writeString other ++ ':' ::
        (sp.colon ++ (w.spaced sp (level + 1) ++ (spacedMembers sp level ms ++ rest))))
      have more := @ih other w (fun x there => through x (List.mem_cons_of_mem _ there)) fuel
      have whole : v.ReadThrough sp := through (name, v) List.mem_cons_self
      have first := whole (level + 1) fuel depth _
        (apart_spacedMembers sp level rest ((other, w) :: ms))
      rw [written, List.cons_append] at comma next more
      rw [skipSpace_of_not_space (by decide)] at next
      simp only [members_writeString, value_blank sp.colon_blank] at read
      rw [depthMembers_cons_le]
      exact through_more (by decide) rfl first comma next (fun _ => more) read

/-! ## Values -/

/-- What is read behind an opening bracket takes one level. -/
theorem through_bracketed {α : Type} {close c : Char} {none : α} {wrap : α → Json}
    {parse : Nat → List Char → Reading α} {tail : List Char} {levels : Nat}
    {r : Json × List Char} (next : skipSpace text = c :: tail) (open_ : c ≠ close)
    (inside : ∀ inner q, parse inner (c :: tail) = .ok q → levels ≤ inner ∧ q.2 = rest)
    (read : ∃ inner d s, depth = inner + 1 ∧ skipSpace text = d :: s ∧
      ((d = close ∧ (wrap none, s) = r) ∨
        d ≠ close ∧ ∃ q, parse inner (d :: s) = .ok q ∧ (wrap q.1, q.2) = r)) :
    levels + 1 ≤ depth ∧ r.2 = rest := by
  obtain ⟨inner, d, s, rfl, same, ⟨ends, -⟩ | ⟨-, q, reads, rfl⟩⟩ := read
  · exact absurd ((List.cons.inj (next.symm.trans same)).1.trans ends) open_
  · rw [← next.symm.trans same] at reads
    obtain ⟨fits, behind⟩ := inside inner q reads
    exact ⟨Nat.succ_le_succ fits, behind⟩

theorem readThrough_num (n : Number) : (Json.num n).ReadThrough sp := by
  intro level fuel depth rest apart r read apart'
  refine ⟨Nat.zero_le _, ?_⟩
  have numeric := numeric_writeNumber n
  obtain ⟨c, tail, written⟩ := List.exists_cons_of_ne_nil numeric.ne_nil
  have first : isNumeric c = true := numeric.chars c (by simp [written])
  cases fuel with
  | zero => simp [value, failAt] at read
  | succ fuel =>
    rw [spaced, written, List.cons_append] at read
    by_cases begins : c = '-' ∨ c.isDigit = true
    · obtain ⟨q, number, rfl⟩ := (value_number begins).mp read
      rw [← List.cons_append, ← written] at number
      exact (number_takes number).eq_of_apart numeric.chars apart apart'
    · have others : c ≠ 'n' ∧ c ≠ 't' ∧ c ≠ 'f' ∧ c ≠ '"' ∧ c ≠ '[' ∧ c ≠ '{' := by
        refine ⟨?_, ?_, ?_, ?_, ?_, ?_⟩ <;> rintro rfl <;> cases first
      rw [value, skipSpace_of_not_space (not_space_of_numeric first).1] at read
      simp [others, begins, failAt] at read

theorem readThrough_arr {vs : List Json} (through : ∀ v ∈ vs, v.ReadThrough sp) :
    (Json.arr vs).ReadThrough sp := by
  intro level fuel depth rest _ r read _
  cases fuel with
  | zero => simp [value, failAt] at read
  | succ fuel =>
    cases vs with
    | nil =>
      have close : skipSpace (']' :: rest) = ']' :: rest := skipSpace_of_not_space (by decide) _
      simp only [spaced, List.cons_append, List.nil_append, value_bracket, close] at read
      obtain ⟨inner, c, s, rfl, same, ⟨-, rfl⟩ | ⟨absurd, -⟩⟩ := read
      · exact ⟨Nat.succ_le_succ (Nat.zero_le _), (List.cons.inj same).2.symm⟩
      · exact absurd.elim (List.cons.inj same).1.symm
    | cons v vs =>
      obtain ⟨c, tail, begins, noSpace, bracket, -⟩ :=
        skipSpace_spaced v sp (level + 1) (spacedItems sp level vs ++ rest)
      have next : skipSpace (sp.gap (level + 1) ++ (c :: tail)) = c :: tail := by
        rw [skipSpace_blank (sp.gap_blank _), noSpace]
      have inside := fun inner q => @items_through sp level inner rest v vs through fuel q
      rw [begins] at inside
      simp only [spaced, List.cons_append, List.append_assoc, value_bracket, begins] at read
      exact through_bracketed next bracket inside read

theorem readThrough_obj {ms : Members} (through : ∀ m ∈ ms, m.2.ReadThrough sp) :
    (Json.obj ms).ReadThrough sp := by
  intro level fuel depth rest _ r read _
  cases fuel with
  | zero => simp [value, failAt] at read
  | succ fuel =>
    cases ms with
    | nil =>
      have close : skipSpace ('}' :: rest) = '}' :: rest := skipSpace_of_not_space (by decide) _
      simp only [spaced, List.cons_append, List.nil_append, value_brace, close] at read
      obtain ⟨inner, c, s, rfl, same, ⟨-, rfl⟩ | ⟨absurd, -⟩⟩ := read
      · exact ⟨Nat.succ_le_succ (Nat.zero_le _), (List.cons.inj same).2.symm⟩
      · exact absurd.elim (List.cons.inj same).1.symm
    | cons m ms =>
      obtain ⟨name, v⟩ := m
      obtain ⟨tail, written, -⟩ := exists_writeString name
      have next := skipSpace_blank (sp.gap_blank (level + 1)) (writeString name ++ ':' ::
        (sp.colon ++ (v.spaced sp (level + 1) ++ (spacedMembers sp level ms ++ rest))))
      have inside := fun inner q => @members_through sp level inner rest name v ms through fuel q
      rw [written, List.cons_append] at next inside
      rw [skipSpace_of_not_space (by decide)] at next
      simp only [spaced, written, List.cons_append, List.append_assoc, value_brace] at read
      exact through_bracketed next (by decide) inside read

theorem readThrough (v : Json) : v.ReadThrough sp := by
  induction v with
  | null =>
    intro level fuel depth rest _ r read _
    cases fuel with
    | zero => simp [value, failAt] at read
    | succ fuel =>
      simp [value, spaced, skipSpace, isSpace, word, Except.map] at read
      exact ⟨Nat.zero_le _, (congrArg Prod.snd read).symm⟩
  | bool b =>
    intro level fuel depth rest _ r read _
    cases fuel with
    | zero => simp [value, failAt] at read
    | succ fuel =>
      cases b <;> simp [value, spaced, skipSpace, isSpace, word, Except.map] at read <;>
        exact ⟨Nat.zero_le _, (congrArg Prod.snd read).symm⟩
  | num n => exact readThrough_num n
  | str s =>
    intro level fuel depth rest _ r read _
    cases fuel with
    | zero => simp [value, failAt] at read
    | succ fuel =>
      obtain ⟨tail, written, tailRead⟩ := exists_writeString s
      rw [spaced, written, List.cons_append, value_quote, tailRead] at read
      obtain ⟨q, taken, rfl⟩ := read
      exact ⟨Nat.zero_le _, (congrArg Prod.snd (Except.ok.inj taken)).symm⟩
  | arr vs ih => exact readThrough_arr ih
  | obj ms ih => exact readThrough_obj ih

/-- A value that is nested deeper than the reader goes is not read from its text. -/
theorem read_toText_of_deep {v : Json} (deep : maxDepth < v.depth) :
    ∃ error, Json.read v.toText = .error error := by
  rw [Json.read, readDocument, toText, String.toList_ofList, ← spaced_tight 0]
  cases read : document (v.spaced .tight 0) with
  | error failure => exact ⟨_, rfl⟩
  | ok w =>
    obtain ⟨r, inside, ends⟩ := document_eq_ok.mp read
    have apart : Apart r := apart_of_apart_skipSpace (ends ▸ apart_nil)
    rw [← List.append_nil (v.spaced .tight 0)] at inside
    have fits := (readThrough v 0 _ _ [] apart_nil _ inside apart).1
    omega

end CobolDialects.Json
