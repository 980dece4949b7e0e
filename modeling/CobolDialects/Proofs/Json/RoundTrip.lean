import CobolDialects.Proofs.Json.Reader
import CobolDialects.Proofs.Json.Spacing

/-!
# Reading what was written

A written value is read back exactly, whatever spacing it was written with, if and only if it is
not nested deeper than the reader goes. So what fails is reading, never writing, and it fails for
the depth alone.
-/

namespace CobolDialects.Json

variable {fuel depth : Nat} {cs : List Char}

/-! ## How the parts of a value are read -/

/-- A written name is read, and then its value. -/
theorem members_writeString {name : String} {r : Members × List Char} :
    members (fuel + 1) depth (writeString name ++ ':' :: cs) = .ok r ↔
      ∃ v s, value fuel depth cs = .ok (v, s) ∧
        ((∃ t, skipSpace s = '}' :: t ∧ ([(name, v)], t) = r) ∨
          ∃ t d w q, skipSpace s = ',' :: t ∧ skipSpace t = d :: w ∧ d ≠ '}' ∧
            members fuel depth (d :: w) = .ok q ∧ ((name, v) :: q.1, q.2) = r) := by
  obtain ⟨tail, written, read⟩ := exists_writeString name
  have colon : skipSpace (':' :: cs) = ':' :: cs := skipSpace_of_not_space (by decide) cs
  rw [members_eq_ok, written, List.cons_append]
  constructor
  · rintro ⟨n, letters, k, s, v, u, same, string, sep, rest⟩
    obtain rfl := (List.cons.inj same).2
    obtain ⟨rfl, rfl⟩ := Prod.mk.inj (Except.ok.inj ((read _).symm.trans string))
    obtain rfl := (List.cons.inj (colon.symm.trans sep)).2
    rw [String.ofList_toList] at rest
    exact ⟨v, u, rest⟩
  · rintro ⟨v, u, rest⟩
    refine ⟨_, name.toList, _, cs, v, u, rfl, read _, colon, ?_⟩
    rw [String.ofList_toList]
    exact rest

theorem value_bracket {r : Json × List Char} : value (fuel + 1) depth ('[' :: cs) = .ok r ↔
    ∃ levels c s, depth = levels + 1 ∧ skipSpace cs = c :: s ∧
      (c = ']' ∧ (.arr [], s) = r ∨
        c ≠ ']' ∧ ∃ q, items fuel levels (c :: s) = .ok q ∧ (.arr q.1, q.2) = r) := by
  rw [value, skipSpace_of_not_space (by decide)]
  cases depth with
  | zero => simp [failAt]
  | succ levels =>
    cases behind : skipSpace cs with
    | nil => simp [behind]
    | cons c s => by_cases close : c = ']' <;> simp [behind, close, map_eq_ok]

theorem value_brace {r : Json × List Char} : value (fuel + 1) depth ('{' :: cs) = .ok r ↔
    ∃ levels c s, depth = levels + 1 ∧ skipSpace cs = c :: s ∧
      (c = '}' ∧ (.obj [], s) = r ∨
        c ≠ '}' ∧ ∃ q, members fuel levels (c :: s) = .ok q ∧ (.obj q.1, q.2) = r) := by
  rw [value, skipSpace_of_not_space (by decide)]
  cases depth with
  | zero => simp [failAt]
  | succ levels =>
    cases behind : skipSpace cs with
    | nil => simp [behind]
    | cons c s => by_cases close : c = '}' <;> simp [behind, close, map_eq_ok]

theorem value_quote {r : Json × List Char} : value (fuel + 1) depth ('"' :: cs) = .ok r ↔
    ∃ q, stringTail cs = .ok q ∧ (.str (String.ofList q.1), q.2) = r := by
  rw [value, skipSpace_of_not_space (by decide)]
  simp [map_eq_ok]

theorem value_number {c : Char} (h : c = '-' ∨ c.isDigit = true) {r : Json × List Char} :
    value (fuel + 1) depth (c :: cs) = .ok r ↔
      ∃ q, number (c :: cs) = .ok q ∧ (.num q.1, q.2) = r := by
  have letters : c ≠ 'n' ∧ c ≠ 't' ∧ c ≠ 'f' ∧ c ≠ '"' := by
    refine ⟨?_, ?_, ?_, ?_⟩ <;> rintro rfl <;> simp at h
  have numeric : isNumeric c = true := by
    rcases h with rfl | digit
    · rfl
    · exact isNumeric_of_isDigit digit
  rw [value, skipSpace_of_not_space (not_space_of_numeric numeric).1]
  simp only [letters, if_false, if_pos h, map_eq_ok]

/-- Space in front of a value is skipped. -/
theorem value_blank {blank : List Char} (h : ∀ c ∈ blank, isSpace c = true)
    {r : Json × List Char} :
    value fuel depth (blank ++ cs) = .ok r ↔ value fuel depth cs = .ok r := by
  cases fuel with
  | zero => simp [value, failAt]
  | succ fuel => rw [value, value, skipSpace_blank h]

/-! ## One value -/

/-- A written value is read as itself, by as many calls as it takes and as many levels as it has,
and by no fewer. -/
def ReadBack (sp : Spacing) (v : Json) : Prop :=
  ∀ (level fuel depth : Nat) (rest : List Char) (r : Json × List Char), EndsNumber rest →
    (value fuel depth (v.spaced sp level ++ rest) = .ok r ↔
      v.weight ≤ fuel ∧ v.depth ≤ depth ∧ (v, rest) = r)

variable {sp : Spacing} {level : Nat} {rest : List Char}

/-- A value with a comma behind it is read, and so is what follows, if there are calls and levels
for both. -/
theorem listed_iff {α : Type} {close : Char} (ne : close ≠ ',') {last : Json → α}
    {join : Json → α → α} {parse : List Char → Reading α} {text behind gap u : List Char} {d : Char}
    {v : Json} {xs : α} {calls levels moreCalls moreLevels : Nat} {r : α × List Char}
    (first : ∀ q, value fuel depth text = .ok q ↔
      calls ≤ fuel ∧ levels ≤ depth ∧ (v, behind) = q)
    (comma : skipSpace behind = ',' :: gap) (next : skipSpace gap = d :: u) (open_ : d ≠ close)
    (more : ∀ q, parse (d :: u) = .ok q ↔
      moreCalls ≤ fuel ∧ moreLevels ≤ depth ∧ (xs, rest) = q) :
    (∃ w s, value fuel depth text = .ok (w, s) ∧
      ((∃ t, skipSpace s = close :: t ∧ (last w, t) = r) ∨
        ∃ t d u q, skipSpace s = ',' :: t ∧ skipSpace t = d :: u ∧ d ≠ close ∧
          parse (d :: u) = .ok q ∧ (join w q.1, q.2) = r)) ↔
      (calls ≤ fuel ∧ moreCalls ≤ fuel) ∧ (levels ≤ depth ∧ moreLevels ≤ depth) ∧
        (join v xs, rest) = r := by
  constructor
  · rintro ⟨w, s, read, ⟨t, ends, -⟩ | ⟨t, d', u', q, separated, head, -, others, rfl⟩⟩
    · obtain ⟨-, -, same⟩ := (first _).mp read
      obtain ⟨-, rfl⟩ := Prod.mk.inj same
      exact absurd (List.cons.inj (ends.symm.trans comma)).1 ne
    · obtain ⟨fits, flat, same⟩ := (first _).mp read
      obtain ⟨rfl, rfl⟩ := Prod.mk.inj same
      obtain rfl := (List.cons.inj (comma.symm.trans separated)).2
      rw [← next.symm.trans head] at others
      obtain ⟨moreFit, moreFlat, rfl⟩ := (more _).mp others
      exact ⟨⟨fits, moreFit⟩, ⟨flat, moreFlat⟩, rfl⟩
  · rintro ⟨⟨fits, moreFit⟩, ⟨flat, moreFlat⟩, rfl⟩
    exact ⟨v, behind, (first _).mpr ⟨fits, flat, rfl⟩,
      .inr ⟨gap, d, u, (xs, rest), comma, next, open_, (more _).mpr ⟨moreFit, moreFlat, rfl⟩, rfl⟩⟩

theorem items_spaced {v : Json} {vs : List Json} (back : ∀ w ∈ v :: vs, w.ReadBack sp)
    (fuel depth : Nat) (r : List Json × List Char) :
    items fuel depth (v.spaced sp (level + 1) ++ (spacedItems sp level vs ++ rest)) = .ok r ↔
      weightItems (v :: vs) ≤ fuel ∧ depthItems (v :: vs) ≤ depth ∧ (v :: vs, rest) = r := by
  induction vs generalizing v fuel r with
  | nil =>
    cases fuel with
    | zero => simp [items, failAt, weightItems]
    | succ fuel =>
      have close := skipSpace_spacedItems_nil sp level rest
      have first := fun q => back v List.mem_cons_self (level + 1) fuel depth _ q
        (apart_spacedItems sp level rest []).endsNumber
      simp [items_eq_ok, first, close, weightItems, depthItems, and_assoc]
  | cons w vs ih =>
    cases fuel with
    | zero => simp [items, failAt, weightItems]
    | succ fuel =>
      obtain ⟨c, tail, begins, noSpace, bracket, -⟩ :=
        skipSpace_spaced w sp (level + 1) (spacedItems sp level vs ++ rest)
      have comma := skipSpace_spacedItems_cons sp level rest w vs
      have next : skipSpace (sp.gap (level + 1) ++ (c :: tail)) = c :: tail := by
        rw [skipSpace_blank (sp.gap_blank _), noSpace]
      have more := fun q => ih (fun x there => back x (List.mem_cons_of_mem _ there)) fuel q
      have first := fun q => back v List.mem_cons_self (level + 1) fuel depth _ q
        (apart_spacedItems sp level rest (w :: vs)).endsNumber
      rw [begins] at comma more
      rw [items_eq_ok, listed_iff (by decide) first comma next bracket more,
        weightItems_cons_le (w :: vs), depthItems_cons_le (w :: vs)]

theorem members_spaced {name : String} {v : Json} {ms : Members}
    (back : ∀ m ∈ (name, v) :: ms, m.2.ReadBack sp) (fuel depth : Nat) (r : Members × List Char) :
    members fuel depth (writeString name ++ ':' :: (sp.colon ++
        (v.spaced sp (level + 1) ++ (spacedMembers sp level ms ++ rest)))) = .ok r ↔
      weightMembers ((name, v) :: ms) ≤ fuel ∧ depthMembers ((name, v) :: ms) ≤ depth ∧
        ((name, v) :: ms, rest) = r := by
  induction ms generalizing name v fuel r with
  | nil =>
    cases fuel with
    | zero => simp [members, failAt, weightMembers]
    | succ fuel =>
      have close := skipSpace_spacedMembers_nil sp level rest
      have whole : v.ReadBack sp := back (name, v) List.mem_cons_self
      have first := fun q => whole (level + 1) fuel depth _ q
        (apart_spacedMembers sp level rest []).endsNumber
      simp [members_writeString, value_blank sp.colon_blank, first, close, weightMembers,
        depthMembers, and_assoc]
  | cons m ms ih =>
    obtain ⟨other, w⟩ := m
    cases fuel with
    | zero => simp [members, failAt, weightMembers]
    | succ fuel =>
      obtain ⟨tail, written, -⟩ := exists_writeString other
      have comma := skipSpace_spacedMembers_cons sp level rest other w ms
      have next := skipSpace_blank (sp.gap_blank (level + 1)) (writeString other ++ ':' ::
        (sp.colon ++ (w.spaced sp (level + 1) ++ (spacedMembers sp level ms ++ rest))))
      have more := fun q => ih (fun x there => back x (List.mem_cons_of_mem _ there)) fuel q
      have whole : v.ReadBack sp := back (name, v) List.mem_cons_self
      have first := fun q => whole (level + 1) fuel depth _ q
        (apart_spacedMembers sp level rest ((other, w) :: ms)).endsNumber
      rw [written, List.cons_append] at comma next more
      rw [skipSpace_of_not_space (by decide)] at next
      simp only [members_writeString, value_blank sp.colon_blank]
      rw [listed_iff (by decide) first comma next (by decide) more,
        weightMembers_cons_le ((other, w) :: ms), depthMembers_cons_le ((other, w) :: ms)]

/-- What is read behind an opening bracket takes one call and one level more. -/
theorem bracketed_iff {α : Type} {close : Char} {none : α} {wrap : α → Json}
    {parse : Nat → List Char → Reading α} {text tail : List Char} {c : Char} {x : α}
    {calls levels : Nat} {r : Json × List Char} (next : skipSpace text = c :: tail)
    (open_ : c ≠ close)
    (read : ∀ depth q, parse depth (c :: tail) = .ok q ↔
      calls ≤ fuel ∧ levels ≤ depth ∧ (x, rest) = q) :
    (∃ inner d s, depth = inner + 1 ∧ skipSpace text = d :: s ∧
      ((d = close ∧ (wrap none, s) = r) ∨
        d ≠ close ∧ ∃ q, parse inner (d :: s) = .ok q ∧ (wrap q.1, q.2) = r)) ↔
      calls + 1 ≤ fuel + 1 ∧ levels + 1 ≤ depth ∧ (wrap x, rest) = r := by
  constructor
  · rintro ⟨inner, d, s, rfl, same, ⟨ends, -⟩ | ⟨-, q, reads, rfl⟩⟩
    · exact absurd ((List.cons.inj (next.symm.trans same)).1.trans ends) open_
    · rw [← next.symm.trans same] at reads
      obtain ⟨fits, flat, rfl⟩ := (read _ _).mp reads
      exact ⟨Nat.succ_le_succ fits, Nat.succ_le_succ flat, rfl⟩
  · rintro ⟨fits, flat, rfl⟩
    exact ⟨depth - 1, c, tail, by omega, next, .inr ⟨open_, (x, rest),
      (read _ _).mpr ⟨Nat.le_of_succ_le_succ fits, by omega, rfl⟩, rfl⟩⟩

theorem readBack_arr {items : List Json} (back : ∀ v ∈ items, v.ReadBack sp) :
    (Json.arr items).ReadBack sp := by
  intro level fuel depth rest r _
  cases fuel with
  | zero => simp [value, failAt, weight]
  | succ fuel =>
    cases items with
    | nil =>
      have close : skipSpace (']' :: rest) = ']' :: rest := skipSpace_of_not_space (by decide) _
      cases depth <;>
        simp [spaced, value_bracket, close, weight, weightItems, Json.depth, depthItems]
    | cons v vs =>
      obtain ⟨c, tail, begins, noSpace, bracket, -⟩ :=
        skipSpace_spaced v sp (level + 1) (spacedItems sp level vs ++ rest)
      have next : skipSpace (sp.gap (level + 1) ++ (c :: tail)) = c :: tail := by
        rw [skipSpace_blank (sp.gap_blank _), noSpace]
      have read := @items_spaced sp level rest v vs back fuel
      rw [begins] at read
      simp only [spaced, List.cons_append, List.append_assoc, value_bracket, begins]
      exact bracketed_iff next bracket read

theorem readBack_obj {ms : Members} (back : ∀ m ∈ ms, m.2.ReadBack sp) :
    (Json.obj ms).ReadBack sp := by
  intro level fuel depth rest r _
  cases fuel with
  | zero => simp [value, failAt, weight]
  | succ fuel =>
    cases ms with
    | nil =>
      have close : skipSpace ('}' :: rest) = '}' :: rest := skipSpace_of_not_space (by decide) _
      cases depth <;>
        simp [spaced, value_brace, close, weight, weightMembers, Json.depth, depthMembers]
    | cons m ms =>
      obtain ⟨name, v⟩ := m
      obtain ⟨tail, written, -⟩ := exists_writeString name
      have next := skipSpace_blank (sp.gap_blank (level + 1)) (writeString name ++ ':' ::
        (sp.colon ++ (v.spaced sp (level + 1) ++ (spacedMembers sp level ms ++ rest))))
      have read := @members_spaced sp level rest name v ms back fuel
      rw [written, List.cons_append] at next read
      rw [skipSpace_of_not_space (by decide)] at next
      simp only [spaced, written, List.cons_append, List.append_assoc, value_brace]
      exact bracketed_iff next (by decide) read

/-- Every value without floating-point numbers is read back. -/
theorem readBack {v : Json} (free : v.floatFree) : v.ReadBack sp := by
  induction v with
  | null =>
    intro level fuel depth rest r _
    cases fuel with
    | zero => simp [value, failAt, weight]
    | succ fuel => simp [value, spaced, skipSpace, isSpace, word, Except.map, weight, Json.depth]
  | bool b =>
    intro level fuel depth rest r _
    cases fuel with
    | zero => simp [value, failAt, weight]
    | succ fuel =>
      cases b <;> simp [value, spaced, skipSpace, isSpace, word, Except.map, weight, Json.depth]
  | num n =>
    cases n with
    | float x => simp [floatFree] at free
    | int n =>
      intro level fuel depth rest r ends
      cases fuel with
      | zero => simp [value, failAt, weight]
      | succ fuel =>
        obtain ⟨c, tail, written, digit, read⟩ := number_writeInt n
        rw [spaced, writeNumber, written, List.cons_append, value_number digit,
          ← List.cons_append, read rest ends]
        simp [weight, Json.depth]
  | str s =>
    intro level fuel depth rest r _
    cases fuel with
    | zero => simp [value, failAt, weight]
    | succ fuel =>
      obtain ⟨tail, written, read⟩ := exists_writeString s
      rw [spaced, written, List.cons_append, value_quote, read]
      simp [weight, Json.depth]
  | arr items ih =>
    have free := floatFreeItems_iff.mp free
    exact readBack_arr fun v there => ih v there (free v there)
  | obj ms ih =>
    have free := floatFreeMembers_iff.mp free
    exact readBack_obj fun m there => ih m there (free m there)

/-! ## Whole texts -/

/-- A written value, with space behind it, is read back if and only if the reader goes as deep. -/
theorem document_spaced {v w : Json} (free : v.floatFree) (level : Nat) {blank : List Char}
    (space : ∀ c ∈ blank, isSpace c = true) :
    document (v.spaced sp level ++ blank) = .ok w ↔ v.depth ≤ maxDepth ∧ w = v := by
  have none : skipSpace blank = [] := by simpa [skipSpace] using skipSpace_blank space []
  have apart : Apart blank := by simpa using apart_blank space apart_nil
  have calls := weight_le sp level v
  rw [document_eq_ok]
  simp only [readBack free level _ _ _ _ apart.endsNumber, List.length_append]
  constructor
  · rintro ⟨r, ⟨-, levels, same⟩, -⟩
    exact ⟨levels, (Prod.mk.inj same).1.symm⟩
  · rintro ⟨levels, rfl⟩
    exact ⟨blank, ⟨by omega, levels, rfl⟩, none⟩

theorem readDocument_eq_ok {cs : List Char} {v : Json} :
    readDocument cs = .ok v ↔ document cs = .ok v := by
  rw [readDocument]
  cases document cs <;> simp

/-- The text of a value over several lines, with a line break behind it. -/
theorem readDocument_toLines {v w : Json} (free : v.floatFree) :
    readDocument (v.toLines ++ "\n").toList = .ok w ↔ v.depth ≤ maxDepth ∧ w = v := by
  rw [readDocument_eq_ok, String.toList_append, toLines, String.toList_ofList, ← spaced_lines]
  exact document_spaced free 0 (List.forall_mem_singleton.mpr (by decide))

theorem readDocument_toText {v w : Json} (free : v.floatFree) :
    readDocument v.toText.toList = .ok w ↔ v.depth ≤ maxDepth ∧ w = v := by
  rw [readDocument_eq_ok, toText, String.toList_ofList, ← spaced_tight 0]
  simpa using document_spaced free 0 (List.forall_mem_nil _)

/-- A value of no more levels than the reader takes is what is read from its text. -/
theorem read_toText {v : Json} (canonical : v.IsCanonical) (free : v.floatFree)
    (levels : v.depth ≤ maxDepth) : Json.read v.toText = .ok v := by
  rw [read_of_readDocument ((readDocument_toText free).mpr ⟨levels, rfl⟩), canonical]

end CobolDialects.Json
