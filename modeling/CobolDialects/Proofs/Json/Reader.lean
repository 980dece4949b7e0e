import CobolDialects.Json.Reader
import Mathlib.Tactic.Common

/-!
# What the reader takes

For each of the reader's functions it is said once what a text has to be for the function to
succeed. From that it follows that the reader never gives a value that is nested deeper than it
goes.
-/

namespace CobolDialects.Json

theorem map_eq_ok {ε α β : Type} {f : α → β} {x : Except ε α} {b : β} :
    x.map f = .ok b ↔ ∃ a, x = .ok a ∧ f a = b := by
  cases x <;> simp [Except.map]

variable {fuel depth : Nat} {cs : List Char}

/-- Behind an item or a member the closing bracket ends the list, and a comma goes on with it. -/
theorem onward_eq_ok {α β : Type} {close : Char} {e e' : Failure} {cause : Cause} {last : β}
    {join : α → β} {more : List Char → Reading α} {r : β × List Char} (ne : close ≠ ',') :
    (match skipSpace cs with
      | [] => Except.error e
      | c :: s =>
        if c = close then Except.ok (last, s)
        else if c = ',' then
          match skipSpace s with
          | [] => Except.error e'
          | d :: t =>
            if d = close then failAt .trailingComma (d :: t)
            else (more (d :: t)).map fun (x, rest) => (join x, rest)
        else failAt cause (c :: s)) = Except.ok r ↔
      (∃ t, skipSpace cs = close :: t ∧ (last, t) = r) ∨
        ∃ t d u q, skipSpace cs = ',' :: t ∧ skipSpace t = d :: u ∧ d ≠ close ∧
          more (d :: u) = .ok q ∧ (join q.1, q.2) = r := by
  cases behind : skipSpace cs with
  | nil => simp
  | cons c t =>
    by_cases ends : c = close
    · simp [ends, ne]
    by_cases comma : c = ','
    · cases next : skipSpace t with
      | nil => simp [comma, ne.symm, next]
      | cons d u =>
        by_cases trailing : d = close
        · simp [comma, ne.symm, next, trailing, failAt]
        · simp [comma, ne.symm, next, trailing, map_eq_ok]
    · simp [ends, comma, failAt]

/-- Items are read by reading the first one, and the others if a comma follows. -/
theorem items_eq_ok {r : List Json × List Char} : items (fuel + 1) depth cs = .ok r ↔
    ∃ v s, value fuel depth cs = .ok (v, s) ∧
      ((∃ t, skipSpace s = ']' :: t ∧ ([v], t) = r) ∨
        ∃ t d u q, skipSpace s = ',' :: t ∧ skipSpace t = d :: u ∧ d ≠ ']' ∧
          items fuel depth (d :: u) = .ok q ∧ (v :: q.1, q.2) = r) := by
  rw [items]
  cases value fuel depth cs with
  | error e => simp
  | ok read =>
    obtain ⟨v, s⟩ := read
    refine (onward_eq_ok (by decide : ']' ≠ ',')).trans ⟨fun h => ⟨v, s, rfl, h⟩, ?_⟩
    rintro ⟨_, _, same, h⟩
    cases same
    exact h

/-- Members are read by reading a name and a value, and the others if a comma follows. -/
theorem members_eq_ok {r : Members × List Char} : members (fuel + 1) depth cs = .ok r ↔
    ∃ n name k s v u, cs = '"' :: n ∧ stringTail n = .ok (name, k) ∧ skipSpace k = ':' :: s ∧
      value fuel depth s = .ok (v, u) ∧
      ((∃ t, skipSpace u = '}' :: t ∧ ([(String.ofList name, v)], t) = r) ∨
        ∃ t d w q, skipSpace u = ',' :: t ∧ skipSpace t = d :: w ∧ d ≠ '}' ∧
          members fuel depth (d :: w) = .ok q ∧ ((String.ofList name, v) :: q.1, q.2) = r) := by
  cases cs with
  | nil => simp [members]
  | cons q n =>
    rw [members]
    by_cases quote : q = '"'
    swap
    · simp [quote, failAt]
    subst quote
    cases tail : stringTail n with
    | error e => simp [tail]
    | ok read =>
      obtain ⟨name, k⟩ := read
      cases colon : skipSpace k with
      | nil => simp [tail, colon]
      | cons c s =>
        by_cases isColon : c = ':'
        swap
        · simp [tail, colon, isColon, failAt]
        subst isColon
        cases first : value fuel depth s with
        | error e => simp [tail, colon, first]
        | ok read =>
          obtain ⟨v, u⟩ := read
          simp only [colon, first, ne_eq, not_true_eq_false, if_false]
          refine (onward_eq_ok (by decide : '}' ≠ ',')).trans
            ⟨fun h => ⟨n, name, k, s, v, u, rfl, tail, colon, first, h⟩, ?_⟩
          rintro ⟨_, _, _, _, _, _, same, sameTail, sameColon, sameFirst, h⟩
          cases same
          cases tail.symm.trans sameTail
          cases colon.symm.trans sameColon
          cases first.symm.trans sameFirst
          exact h

/-- What is read behind an opening bracket is empty, or it is read up to the closing one. -/
theorem bracketed_cases {α : Type} {none : α} {wrap : α → Json} {parse : List Char → Reading α}
    {close : Char} {e : Failure} {v : Json} {rest : List Char}
    (h : (match skipSpace cs with
      | [] => Except.error e
      | d :: s => if d = close then Except.ok (wrap none, s)
        else (parse (d :: s)).map fun (x, rest) => (wrap x, rest)) = .ok (v, rest)) :
    ∃ x, v = wrap x ∧ (x = none ∨ ∃ s, parse s = .ok (x, rest)) := by
  split at h
  · cases h
  · rename_i d s behind
    split_ifs at h
    · obtain ⟨rfl, -⟩ := Prod.mk.inj (Except.ok.inj h)
      exact ⟨none, rfl, .inl rfl⟩
    · obtain ⟨q, read, same⟩ := map_eq_ok.mp h
      obtain ⟨rfl, rfl⟩ := Prod.mk.inj same
      exact ⟨q.1, rfl, .inr ⟨d :: s, read⟩⟩

/-- What is read lies flat, or it is an array or an object that takes one level. -/
theorem value_cases {v : Json} {rest : List Char} (h : value (fuel + 1) depth cs = .ok (v, rest)) :
    v.depth = 0 ∨
      ∃ levels, depth = levels + 1 ∧
        ((∃ vs, v = .arr vs ∧ (vs = [] ∨ ∃ s, items fuel levels s = .ok (vs, rest))) ∨
          ∃ ms, v = .obj ms ∧ (ms = [] ∨ ∃ s, members fuel levels s = .ok (ms, rest))) := by
  rw [value] at h
  cases begins : skipSpace cs with
  | nil => simp [begins] at h
  | cons c s =>
    simp only [begins] at h
    split_ifs at h
    iterate 5
      obtain ⟨_, _, same⟩ := map_eq_ok.mp h
      obtain ⟨rfl, -⟩ := Prod.mk.inj same
      exact .inl rfl
    · cases depth with
      | zero => simp [failAt] at h
      | succ levels => exact .inr ⟨levels, rfl, .inl (bracketed_cases h)⟩
    · cases depth with
      | zero => simp [failAt] at h
      | succ levels => exact .inr ⟨levels, rfl, .inr (bracketed_cases h)⟩
    · simp [failAt] at h

/-! ## How deep the reader goes -/

/-- What is read lies no deeper than the reader goes. -/
theorem depth_le_of_value : ∀ fuel {depth : Nat} {cs : List Char},
    (∀ {v rest}, value fuel depth cs = .ok (v, rest) → v.depth ≤ depth) ∧
      (∀ {vs rest}, items fuel depth cs = .ok (vs, rest) → depthItems vs ≤ depth) ∧
      ∀ {ms rest}, members fuel depth cs = .ok (ms, rest) → depthMembers ms ≤ depth := by
  intro fuel
  induction fuel with
  | zero => intro depth cs; refine ⟨?_, ?_, ?_⟩ <;> simp [value, items, members, failAt]
  | succ fuel ih =>
    intro depth cs
    refine ⟨fun {v rest} read => ?_, fun {vs rest} read => ?_, fun {ms rest} read => ?_⟩
    · rcases value_cases read with flat | ⟨levels, rfl, ⟨vs, rfl, inside⟩ | ⟨ms, rfl, inside⟩⟩
      · omega
      · rw [Json.depth]
        rcases inside with rfl | ⟨s, inside⟩
        · simp [depthItems]
        · exact Nat.succ_le_succ (ih.2.1 inside)
      · rw [Json.depth]
        rcases inside with rfl | ⟨s, inside⟩
        · simp [depthMembers]
        · exact Nat.succ_le_succ (ih.2.2 inside)
    · obtain ⟨v, s, first, ⟨t, -, same⟩ | ⟨t, d, u, q, -, -, -, more, same⟩⟩ := items_eq_ok.mp read
      · obtain ⟨rfl, -⟩ := Prod.mk.inj same
        simpa [depthItems] using ih.1 first
      · obtain ⟨rfl, -⟩ := Prod.mk.inj same
        exact Nat.max_le.mpr ⟨ih.1 first, ih.2.1 more⟩
    · obtain ⟨n, name, k, s, v, u, -, -, -, first,
        ⟨t, -, same⟩ | ⟨t, d, w, q, -, -, -, more, same⟩⟩ :=
        members_eq_ok.mp read
      · obtain ⟨rfl, -⟩ := Prod.mk.inj same
        simpa [depthMembers] using ih.1 first
      · obtain ⟨rfl, -⟩ := Prod.mk.inj same
        exact Nat.max_le.mpr ⟨ih.1 first, ih.2.2 more⟩

theorem document_eq_ok {cs : List Char} {v : Json} : document cs = .ok v ↔
    ∃ r, value (2 * cs.length + 2) maxDepth cs = .ok (v, r) ∧ skipSpace r = [] := by
  rw [document]
  cases read : value (2 * cs.length + 2) maxDepth cs with
  | error e => simp
  | ok q =>
    obtain ⟨w, r⟩ := q
    cases behind : skipSpace r with
    | nil => simp [behind]
    | cons c s => simp [behind]

/-- A whole text lies no deeper than the reader goes. -/
theorem depth_le_of_document {cs : List Char} {v : Json} (h : document cs = .ok v) :
    v.depth ≤ maxDepth := by
  obtain ⟨r, read, -⟩ := document_eq_ok.mp h
  exact (depth_le_of_value _).1 read

/-- Whatever form it was written in, a document is read as its value. -/
theorem read_of_readDocument {text : String} {v : Json} (h : readDocument text.toList = .ok v) :
    Json.read text = .ok v.canonical := by
  rw [Json.read, h, Except.map]

end CobolDialects.Json
