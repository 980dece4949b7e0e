import CobolDialects.FileSystem.Change
import Mathlib.Tactic.Common

/-!
# Paths and their components

A path that is put together from names has these names again. The directories above a path are the
paths of the beginnings of its components, each of which holds the next longer one.
-/

namespace CobolDialects

variable {separator b : UInt8} {piece rest : Bytes}

theorem splitBytes_ne_nil (separator : UInt8) (p : Bytes) : splitBytes separator p ≠ [] := by
  cases p with
  | nil => simp [splitBytes]
  | cons b p =>
    unfold splitBytes
    split_ifs
    · simp
    · split <;> simp

theorem splitBytes_cons_of_ne (p : Bytes) (ne : b ≠ separator) :
    splitBytes separator (b :: p) =
      (b :: (splitBytes separator p).head (splitBytes_ne_nil separator p)) ::
        (splitBytes separator p).tail := by
  rw [splitBytes, if_neg ne]
  split
  · rename_i none
    exact absurd none (splitBytes_ne_nil separator p)
  · rename_i pieces split
    simp [split]

theorem splitBytes_of_not_mem (h : separator ∉ piece) : splitBytes separator piece = [piece] := by
  induction piece with
  | nil => rfl
  | cons b piece ih =>
    rw [List.mem_cons, not_or] at h
    simp [splitBytes_cons_of_ne piece (Ne.symm h.1), ih h.2]

/-- A separator takes a path apart, whatever stands around it. -/
theorem splitBytes_append_separator (p rest : Bytes) :
    splitBytes separator (p ++ separator :: rest) =
      splitBytes separator p ++ splitBytes separator rest := by
  induction p with
  | nil => simp [splitBytes]
  | cons b p ih =>
    rw [List.cons_append]
    by_cases same : b = separator
    · rw [splitBytes, if_pos same, ih, splitBytes, if_pos same, List.cons_append]
    · simp only [splitBytes_cons_of_ne _ same, ih, List.cons_append,
        List.head_append_of_ne_nil (splitBytes_ne_nil separator p),
        List.tail_append_of_ne_nil (splitBytes_ne_nil separator p)]

theorem splitBytes_append (h : separator ∉ piece) :
    splitBytes separator (piece ++ separator :: rest) = piece :: splitBytes separator rest := by
  rw [splitBytes_append_separator, splitBytes_of_not_mem h, List.singleton_append]

/-- What stands between separators holds none of them. -/
theorem not_mem_of_mem_splitBytes {p : Bytes} (h : piece ∈ splitBytes separator p) :
    separator ∉ piece := by
  induction p generalizing piece with
  | nil =>
    obtain rfl := List.mem_singleton.mp h
    simp
  | cons b p ih =>
    by_cases same : b = separator
    · rw [splitBytes, if_pos same, List.mem_cons] at h
      rcases h with rfl | h
      · simp
      · exact ih h
    · rw [splitBytes_cons_of_ne p same, List.mem_cons] at h
      rcases h with rfl | h
      · have first := ih (List.head_mem (splitBytes_ne_nil separator p))
        simp [Ne.symm same, first]
      · exact ih (List.mem_of_mem_tail h)

theorem intercalate_splitBytes (separator : UInt8) (p : Bytes) :
    [separator].intercalate (splitBytes separator p) = p := by
  induction p with
  | nil => rfl
  | cons b p ih =>
    obtain ⟨piece, pieces, split⟩ := List.exists_cons_of_ne_nil (splitBytes_ne_nil separator p)
    by_cases same : b = separator
    · rw [splitBytes, if_pos same, same]
      rw [split] at ih ⊢
      rw [List.intercalate_cons_cons, ih]
      simp
    · rw [splitBytes_cons_of_ne p same]
      simp only [split, List.head_cons, List.tail_cons]
      rw [split] at ih
      cases pieces with
      | nil => simpa using ih
      | cons next pieces =>
        rw [List.intercalate_cons_cons] at ih ⊢
        rw [List.cons_append, List.cons_append, ih]

theorem intercalate_sublist {α : Type} (between : List α) {xs ys : List (List α)}
    (h : xs.Sublist ys) : (between.intercalate xs).Sublist (between.intercalate ys) := by
  induction h with
  | slnil => exact .refl _
  | @cons xs ys y _ ih =>
    cases ys with
    | nil => exact ih.trans (List.nil_sublist _)
    | cons next ys =>
      rw [List.intercalate_cons_cons]
      exact ih.trans (List.sublist_append_right _ _)
  | @cons_cons xs ys y inner ih =>
    cases ys with
    | nil =>
      obtain rfl := List.sublist_nil.mp inner
      exact .refl _
    | cons next ys =>
      rw [List.intercalate_cons_cons]
      cases xs with
      | nil =>
        rw [List.intercalate_singleton, List.append_assoc]
        exact List.sublist_append_left _ _
      | cons first xs =>
        rw [List.intercalate_cons_cons]
        exact (List.Sublist.refl _).append ih

namespace Path

variable {absolute : Bool} {cs : List Name} {c : Name} {p : Path}

/-- A name that a path can have. -/
structure IsComponent (c : Name) : Prop where
  ne_nil : c ≠ []
  not_slash : slash ∉ c

theorem isComponent_of_mem_names (h : c ∈ p.names) : IsComponent c where
  ne_nil := by simpa using (List.mem_filter.mp h).2
  not_slash := not_mem_of_mem_splitBytes (List.mem_filter.mp h).1

theorem names_append_slash (p q : Path) : (p ++ slash :: q).names = p.names ++ q.names := by
  rw [names, splitBytes_append_separator, List.filter_append]
  rfl

theorem names_of_isComponent (h : IsComponent c) : names c = [c] := by
  rw [names, splitBytes_of_not_mem h.not_slash, List.filter_cons_of_pos (by simpa using h.ne_nil),
    List.filter_nil]

theorem intercalate_append (some : cs ≠ []) (c : Name) :
    [slash].intercalate (cs ++ [c]) = [slash].intercalate cs ++ slash :: c := by
  induction cs with
  | nil => exact absurd rfl some
  | cons first cs ih =>
    cases cs with
    | nil => simp [List.intercalate, List.intersperse]
    | cons second cs =>
      have later := ih (by simp)
      simp only [List.intercalate, List.cons_append, List.intersperse, List.flatten_cons] at later ⊢
      rw [later]
      simp

theorem splitBytes_intercalate (some : cs ≠ []) (h : ∀ c ∈ cs, IsComponent c) :
    splitBytes slash ([slash].intercalate cs) = cs := by
  induction cs with
  | nil => exact absurd rfl some
  | cons first cs ih =>
    have plain := (h first List.mem_cons_self).not_slash
    cases cs with
    | nil => simpa [List.intercalate, List.intersperse] using splitBytes_of_not_mem plain
    | cons second cs =>
      have later := ih (by simp) fun c there => h c (List.mem_cons_of_mem _ there)
      simp only [List.intercalate, List.intersperse, List.flatten_cons] at later ⊢
      rw [List.singleton_append, splitBytes_append plain, later]

@[simp] theorem names_ofComponents (absolute : Bool) (h : ∀ c ∈ cs, IsComponent c) :
    (ofComponents absolute cs).names = cs := by
  have proper : cs.filter (· ≠ []) = cs := by
    rw [List.filter_eq_self]
    intro c there
    simpa using (h c there).ne_nil
  have plain : names ([slash].intercalate cs) = cs := by
    cases cs with
    | nil => decide
    | cons c cs =>
      unfold names
      rw [splitBytes_intercalate (by simp) h]
      exact proper
  cases absolute with
  | false => exact plain
  | true =>
    unfold ofComponents names
    rw [if_pos rfl, List.singleton_append, splitBytes, if_pos rfl,
      List.filter_cons_of_neg (by simp)]
    exact plain

theorem isAbsolute_ofComponents (absolute : Bool) (h : ∀ c ∈ cs, IsComponent c) :
    (ofComponents absolute cs).isAbsolute = absolute := by
  cases absolute with
  | true => simp [ofComponents, isAbsolute]
  | false =>
    cases cs with
    | nil => decide
    | cons c cs =>
      obtain ⟨ne_nil, not_slash⟩ := h c List.mem_cons_self
      cases c with
      | nil => exact absurd rfl ne_nil
      | cons b c =>
        have other : b ≠ slash := fun same => not_slash (same ▸ List.mem_cons_self)
        cases cs <;> simp [ofComponents, isAbsolute, List.intercalate, List.intersperse, other]

theorem endsInSlash_ofComponents (absolute : Bool) (some : cs ≠ []) (h : ∀ c ∈ cs, IsComponent c) :
    (ofComponents absolute cs).endsInSlash = false := by
  obtain ⟨front, last, rfl⟩ := (List.eq_nil_or_concat cs).resolve_left some
  rw [List.concat_eq_append] at h ⊢
  obtain ⟨ne_nil, not_slash⟩ := h last (by simp)
  have ends : ∃ before, ofComponents absolute (front ++ [last]) = before ++ last := by
    unfold ofComponents
    cases front with
    | nil => exact ⟨if absolute then [slash] else [], by simp [List.intercalate]⟩
    | cons c front =>
      rw [intercalate_append (by simp)]
      refine ⟨(if absolute then [slash] else []) ++
        ([slash].intercalate (c :: front) ++ [slash]), ?_⟩
      simp only [List.append_assoc, List.singleton_append]
  obtain ⟨before, ends⟩ := ends
  have other : last.getLast ne_nil ≠ slash := fun same => not_slash (same ▸ List.getLast_mem ne_nil)
  rw [endsInSlash, ends, List.getLast?_append, List.getLast?_eq_some_getLast ne_nil]
  simpa using other

/-! ## Components -/

/-- Names such as the components of a path are: a dot stands at most at the front of a relative
path. -/
structure Normal (absolute : Bool) (cs : List Name) : Prop where
  proper : ∀ c ∈ cs, IsComponent c
  front : absolute → dot ∉ cs
  tail : dot ∉ cs.tail

theorem components_sublist (p : Path) : p.components.Sublist p.names := by
  unfold components
  split
  · exact List.nil_sublist _
  · rename_i first rest names
    rw [names]
    split_ifs
    · exact List.filter_sublist.cons first
    · exact List.filter_sublist.cons_cons first

theorem components_subset_names (p : Path) : p.components ⊆ p.names := (components_sublist p).subset

/-- A name behind a separator, unless it is a dot, is the last component. -/
theorem getLast?_components (p : Path) (name : IsComponent c) (notDot : c ≠ dot) :
    (p ++ slash :: c).components.getLast? = some c := by
  have counts : [c].filter (· ≠ dot) = [c] := by simp [notDot]
  rw [components, names_append_slash, names_of_isComponent name]
  cases p.names with
  | nil => simp [notDot]
  | cons first rest =>
    simp only [List.cons_append, List.filter_append, counts]
    split_ifs
    · exact List.getLast?_concat
    · rw [← List.cons_append]
      exact List.getLast?_concat

theorem filter_components (p : Path) :
    p.components.filter (· ≠ dot) = p.names.filter (· ≠ dot) := by
  unfold components
  split
  · rename_i names
    rw [names]
  · rename_i first rest names
    rw [names]
    split_ifs with leading
    · simp [leading.1]
    · simp [List.filter_cons]

theorem normal_components (p : Path) : Normal p.isAbsolute p.components where
  proper c there := isComponent_of_mem_names (components_subset_names p there)
  front absolute := by
    unfold components
    split
    · simp
    · simp only [absolute, and_true]
      split_ifs with isDot
      · simp
      · simp [Ne.symm isDot]
  tail := by
    unfold components
    split
    · simp
    · split_ifs
      · exact fun there => by simpa using List.mem_of_mem_tail there
      · simp

theorem Normal.of_append {more : List Name} (h : Normal absolute (cs ++ more)) :
    Normal absolute cs where
  proper c there := h.proper c (List.mem_append_left _ there)
  front isAbsolute there := h.front isAbsolute (List.mem_append_left _ there)
  tail there := by
    cases cs with
    | nil => cases there
    | cons c cs => exact h.tail (List.mem_append_left _ there)

theorem components_ofComponents (h : Normal absolute cs) :
    (ofComponents absolute cs).components = cs := by
  unfold components
  rw [names_ofComponents absolute h.proper, isAbsolute_ofComponents absolute h.proper]
  cases cs with
  | nil => rfl
  | cons first rest =>
    have rest_eq : rest.filter (· ≠ dot) = rest := by
      rw [List.filter_eq_self]
      intro c there
      have ne : c ≠ dot := fun same => h.tail (same ▸ there)
      simpa using ne
    have notDot : ¬(first = dot ∧ absolute = true) := by
      rintro ⟨rfl, isAbsolute⟩
      exact h.front isAbsolute List.mem_cons_self
    simp only [if_neg notDot, rest_eq]

theorem directory?_eq_some {dir : Path} (h : p.directory? = some dir) :
    p.components ≠ [] ∧ dir ≠ [] ∧ dir = ofComponents p.isAbsolute p.components.dropLast := by
  unfold directory? parent? at h
  split_ifs at h with none
  · cases h
  · obtain ⟨same, some⟩ := Option.filter_eq_some_iff.mp h
    exact ⟨none, by simpa using some, (Option.some.inj same).symm⟩

/-- The path that is put together from some of the names of a path leaves out some of its bytes. -/
theorem ofComponents_sublist (h : cs.Sublist p.names) :
    (ofComponents p.isAbsolute cs).Sublist p := by
  unfold ofComponents
  cases absolute : p.isAbsolute with
  | false =>
    have shorter := intercalate_sublist [slash] (h.trans List.filter_sublist)
    rwa [intercalate_splitBytes] at shorter
  | true =>
    cases p with
    | nil => cases absolute
    | cons b rest =>
      obtain rfl : b = slash := by simpa [isAbsolute] using absolute
      have below : cs.Sublist (splitBytes slash rest) := by
        rw [names, splitBytes, if_pos rfl, List.filter_cons_of_neg (by simp)] at h
        exact h.trans List.filter_sublist
      have shorter := intercalate_sublist [slash] below
      rw [intercalate_splitBytes] at shorter
      exact shorter.cons_cons slash

theorem directory?_sublist {dir : Path} (h : p.directory? = some dir) : dir.Sublist p := by
  obtain ⟨-, -, rfl⟩ := directory?_eq_some h
  exact ofComponents_sublist ((List.dropLast_sublist _).trans (components_sublist p))

/-- The names of the directory above a path are the first names of the path, but for dots. -/
theorem names_of_directory? {dir : Path} (h : p.directory? = some dir) :
    dir.isAbsolute = p.isAbsolute ∧ ∃ front more, p.names = front ++ more ∧ more ≠ [] ∧
      front.filter (· ≠ dot) = dir.names.filter (· ≠ dot) := by
  obtain ⟨some, proper, rfl⟩ := directory?_eq_some h
  have normal := normal_components p
  have ends := List.dropLast_concat_getLast some
  have front : Normal p.isAbsolute p.components.dropLast := by
    rw [← ends] at normal
    exact normal.of_append
  refine ⟨isAbsolute_ofComponents _ front.proper, ?_⟩
  rw [names_ofComponents _ front.proper]
  -- A last component that is a dot is the only one of a relative path, which has no directory.
  have notDot : p.components.getLast some ≠ dot := by
    intro last
    rw [last] at ends
    have relative : p.isAbsolute = false := by
      by_contra absolute
      exact normal.front (by simpa using absolute) (by rw [← ends]; simp)
    cases shorter : p.components.dropLast with
    | nil => exact proper (by rw [shorter, relative]; rfl)
    | cons c cs =>
      rw [shorter] at ends
      exact normal.tail (by rw [← ends]; simp)
  have split := filter_components p
  rw [← ends, List.filter_append] at split
  obtain ⟨front, more, names, first, second⟩ := List.filter_eq_append_iff.mp split.symm
  refine ⟨front, more, names, ?_, first⟩
  rintro rfl
  simp [notDot] at second

end Path

end CobolDialects
