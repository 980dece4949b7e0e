import CobolDialects.FileSystem.Change
import CobolDialects.Proofs.Text.Encoding
import Mathlib.Data.List.Nodup
import Mathlib.Data.List.Perm.Subperm

/-!
# Entries and nodes

What is found at a location, and in a node, after each of the changes of which the calls to the
system are made.
-/

namespace CobolDialects

namespace FileSystem

variable {fs : FileSystem} {at_ other : Location} {entry : Entry} {n : Nat}

theorem lookup_filter (entries : List (Location × Entry)) (at_ other : Location) :
    (entries.filter (·.1 ≠ at_)).lookup other =
      if other = at_ then none else entries.lookup other := by
  induction entries with
  | nil => simp
  | cons e entries ih =>
    obtain ⟨here, entry⟩ := e
    by_cases removed : here = at_
    · subst removed
      rw [List.filter_cons_of_neg (by simp), ih, List.lookup_cons]
      split_ifs with same
      · rfl
      · rw [beq_false_of_ne same]
    · rw [List.filter_cons_of_pos (by simpa using removed), List.lookup_cons, List.lookup_cons, ih]
      by_cases same : other = here
      · subst same
        simp [removed]
      · rw [beq_false_of_ne same]

theorem entry?_removeEntry (proper : at_ ≠ []) :
    entry? (fs.removeEntry at_) other = if other = at_ then none else fs.entry? other := by
  unfold entry? removeEntry
  by_cases root : other = []
  · simp [root, proper.symm]
  · simp only [if_neg root]
    exact lookup_filter fs.entries at_ other

theorem entry?_setEntry (proper : at_ ≠ []) :
    entry? (fs.setEntry at_ entry) other = if other = at_ then some entry else fs.entry? other := by
  unfold entry? setEntry
  by_cases root : other = []
  · simp [root, proper.symm]
  · simp only [if_neg root, List.lookup_append, lookup_filter]
    by_cases same : other = at_
    · simp [same]
    · simp [same, List.lookup_cons, beq_false_of_ne same]

theorem mem_setEntry {e : Location × Entry} (h : e ∈ (fs.setEntry at_ entry).entries) :
    e ∈ fs.entries ∨ e = (at_, entry) := by
  rcases List.mem_append.mp h with old | new
  · exact .inl (List.mem_filter.mp old).1
  · exact .inr (List.mem_singleton.mp new)

@[simp] theorem entry?_setContent (content : Content) :
    entry? (fs.setContent n content) other = fs.entry? other := rfl

theorem temporaryName_injective {m n : Nat} (h : temporaryName m = temporaryName n) : m = n := by
  have texts := congrArg String.toList (bytesOf_injective h)
  have digits : Nat.toDigits 10 m = Nat.toDigits 10 n := by
    simpa [toString, Nat.repr] using texts
  have values := congrArg (Nat.ofDigitChars 10 · 0) digits
  simpa [Nat.ofDigitChars_ten_toDigits] using values

theorem node?_setContent (content : Content) (m : Nat) :
    (fs.setContent n content).node? m =
      (fs.node? m).map fun node => if n = m then { node with content } else node := by
  unfold node? setContent
  rw [List.getElem?_modify]
  split_ifs with same <;> cases fs.nodes[m]? <;> rfl

theorem node?_setContent_of_ne {m : Nat} (content : Content) (ne : n ≠ m) :
    (fs.setContent n content).node? m = fs.node? m := by
  rw [node?_setContent]
  simp only [if_neg ne, Option.map_id']

theorem contentOf_congr {fs' : FileSystem} (h : fs'.node? n = fs.node? n) :
    fs'.contentOf n = fs.contentOf n := by
  rw [contentOf, contentOf, h]

theorem contentOf_setContent (content : Content) (lt : n < fs.nodes.length) :
    (fs.setContent n content).contentOf n = content.shown := by
  have node : fs.node? n = some fs.nodes[n] := List.getElem?_eq_getElem lt
  rw [contentOf, node?_setContent, node]
  simp

theorem node?_addFile_of_lt {node : Node} (lt : n < fs.nodes.length) :
    (fs.addFile at_ node).node? n = fs.node? n := List.getElem?_append_left lt

/-- A new file holds what is written to it. -/
theorem contentOf_new (node : Node) (content : Content) :
    ((fs.addFile at_ node).setContent fs.nodes.length content).contentOf fs.nodes.length =
      content.shown :=
  contentOf_setContent content (by simp [addFile, addNode, setEntry])

/-! ## Names that are free -/

theorem mem_of_entry (proper : at_ ≠ []) (h : fs.entry? at_ = some entry) :
    (at_, entry) ∈ fs.entries := by
  unfold entry? at h
  rw [if_neg proper] at h
  obtain ⟨before, behind, split, -⟩ := List.lookup_eq_some_iff.mp h
  rw [split]
  simp

/-- There are more candidates than names in use, so one of them is free. -/
theorem freshName_spec (fs : FileSystem) (dir : Location) (reserved : Option Name) :
    fs.entry? (dir ++ [fs.freshName dir reserved]) = none ∧
      reserved ≠ some (fs.freshName dir reserved) := by
  let candidates := (List.range (fs.entries.length + 2)).map temporaryName
  let used : List (Option Name) := reserved :: fs.entries.map (·.1.getLast?)
  have nodup : (candidates.map some).Nodup := by
    have injective : Function.Injective temporaryName := fun _ _ => temporaryName_injective
    exact (List.nodup_range.map injective).map fun _ _ => Option.some.inj
  have free : ∃ name ∈ candidates,
      fs.entry? (dir ++ [name]) = none ∧ reserved ≠ some name := by
    by_contra taken
    push Not at taken
    have inUse : candidates.map some ⊆ used := by
      intro name there
      obtain ⟨name, candidate, rfl⟩ := List.mem_map.mp there
      cases own : fs.entry? (dir ++ [name]) with
      | none =>
        rw [← taken name candidate own]
        exact List.mem_cons_self
      | some entry =>
        have inside := mem_of_entry (by simp) own
        exact List.mem_cons_of_mem _ (List.mem_map.mpr ⟨_, inside, by simp⟩)
    have length := (nodup.subperm inUse).length_le
    simp [candidates, used] at length
  obtain ⟨name, found⟩ : ∃ name, candidates.find?
      (fun name => fs.entry? (dir ++ [name]) = none ∧ reserved ≠ some name) = some name := by
    rw [← Option.isSome_iff_exists, List.find?_isSome]
    obtain ⟨name, there, free⟩ := free
    exact ⟨name, there, by simpa using free⟩
  have chosen : fs.freshName dir reserved = name := by
    unfold freshName
    rw [found]
    rfl
  rw [chosen]
  simpa using List.find?_some found

/-- A name is taken if it is the first one that is free. -/
theorem freshName_first (fs : FileSystem) (dir : Location) (reserved : Option Name) :
    ∃ k, fs.freshName dir reserved = temporaryName k ∧ ∀ j < k,
      ¬(fs.entry? (dir ++ [temporaryName j]) = none ∧ reserved ≠ some (temporaryName j)) := by
  unfold freshName
  rw [List.find?_map]
  cases found : (List.range (fs.entries.length + 2)).find? ((fun name =>
      fs.entry? (dir ++ [name]) = none ∧ reserved ≠ some name) ∘ temporaryName) with
  | none => exact ⟨0, rfl, nofun⟩
  | some k =>
    refine ⟨k, rfl, fun j lt => ?_⟩
    simpa [imp_iff_not_or] using (List.find?_range_eq_some.mp found).2.2 j lt

/-- Where the same names are free, the same one is taken. -/
theorem freshName_congr {fs' : FileSystem} {dir : Location} (reserved : Option Name)
    (free : ∀ k, fs'.entry? (dir ++ [temporaryName k]) = none ↔
      fs.entry? (dir ++ [temporaryName k]) = none) :
    fs'.freshName dir reserved = fs.freshName dir reserved := by
  have spec := freshName_spec fs dir reserved
  have spec' := freshName_spec fs' dir reserved
  obtain ⟨k, name, least⟩ := freshName_first fs dir reserved
  obtain ⟨k', name', least'⟩ := freshName_first fs' dir reserved
  rw [name] at spec ⊢
  rw [name'] at spec' ⊢
  rcases Nat.lt_trichotomy k' k with lt | rfl | gt
  · exact absurd ⟨(free k').mp spec'.1, spec'.2⟩ (least k' lt)
  · rfl
  · exact absurd ⟨(free k).mpr spec.1, spec.2⟩ (least' k gt)

end FileSystem

end CobolDialects
