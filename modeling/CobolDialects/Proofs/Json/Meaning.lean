import CobolDialects.Proofs.Json.Canonical
import Mathlib.Data.List.Forall2
import Mathlib.Data.List.Induction
import Mathlib.Data.List.Nodup

/-!
# What a document stands for

A document may repeat a name in an object; the last member of a name counts, at every depth. Keeping
members in the order of their names and keeping them where their names first occur are two ways to
hold the same values, so a look-up in one finds what a look-up in the other does.
-/

namespace CobolDialects

namespace Members

variable {name : String} {value : Json} {ms others : Members}

/-- The value of the last member of a name. -/
def last? (name : String) (ms : Members) : Option Json :=
  (ms.reverse.find? (·.1 = name)).map (·.2)

theorem last?_concat (ms : Members) (m : String × Json) (name : String) :
    last? name (ms ++ [m]) = if name = m.1 then some m.2 else last? name ms := by
  rw [last?, List.reverse_append, List.reverse_singleton, List.singleton_append, List.find?_cons]
  by_cases same : m.1 = name
  · simp [same]
  · simp [same, Ne.symm same, last?]

theorem find?_insert (ms : Members) (name : String) (value : Json) (other : String) :
    (Members.insert name value ms).find? other =
      if other = name then some value else ms.find? other := by
  induction ms with
  | nil => simp [insert, find?, eq_comm]
  | cons m ms ih =>
    simp only [insert]
    split_ifs with before same found found <;> grind [find?]

/-- A name has the value that its last member has. -/
theorem find?_ordered (ms : Members) (name : String) : ms.ordered.find? name = ms.last? name := by
  induction ms using List.reverseRecOn with
  | nil => rfl
  | append_singleton ms m ih =>
    have step : ordered (ms ++ [m]) = (ordered ms).upsert m.1 m.2 := List.foldl_append
    rw [step, find?_upsert, ih, last?_concat]

theorem find?_sorted (ms : Members) (name : String) : ms.sorted.find? name = ms.last? name := by
  induction ms using List.reverseRecOn with
  | nil => rfl
  | append_singleton ms m ih =>
    have step : sorted (ms ++ [m]) = (sorted ms).insert m.1 m.2 := List.foldl_append
    rw [step, find?_insert, ih, last?_concat]

/-- The names stand where they first occur. -/
theorem names_ordered (ms : Members) : ms.ordered.names = ms.names.eraseDups := by
  induction ms using List.reverseRecOn with
  | nil => rfl
  | append_singleton ms m ih =>
    have step : ordered (ms ++ [m]) = (ordered ms).upsert m.1 m.2 := List.foldl_append
    rw [step, names_append, List.eraseDups_append, ← ih]
    by_cases known : m.1 ∈ (ordered ms).names
    · rw [names_upsert_of_mem known]
      have old : m.1 ∈ names ms := by
        rw [ih] at known
        exact List.mem_eraseDups.mp known
      simp [List.removeAll, old]
    · rw [upsert_of_not_mem known, names_append]
      have new : m.1 ∉ names ms := fun there =>
        known (by rw [ih]; exact List.mem_eraseDups.mpr there)
      simp [List.removeAll, new, List.eraseDups_cons]

theorem last?_map (f : Json → Json) (ms : Members) (name : String) :
    last? name (ms.map fun m => (m.1, f m.2)) = (ms.last? name).map f := by
  rw [last?, last?, ← List.map_reverse, List.find?_map, Option.map_map, Option.map_map]
  rfl

theorem mem_of_last? (h : ms.last? name = some value) : (name, value) ∈ ms := by
  obtain ⟨⟨n, v⟩, found, rfl⟩ := Option.map_eq_some_iff.mp h
  obtain rfl : n = name := by simpa using List.find?_some found
  exact List.mem_reverse.mp (List.mem_of_find?_eq_some found)

/-- Names in order and their values are all that there is to know. -/
theorem ext_of_increasing (order : ms.Increasing) (order' : others.Increasing)
    (same : ∀ name, ms.find? name = others.find? name) : ms = others := by
  have distinct := nodup_of_increasing order
  have distinct' := nodup_of_increasing order'
  have perm : ms.Perm others := by
    rw [List.perm_ext_iff_of_nodup (List.Nodup.of_map _ distinct) (List.Nodup.of_map _ distinct')]
    rintro ⟨name, value⟩
    rw [← find?_eq_some distinct, ← find?_eq_some distinct', same]
  refine perm.eq_of_pairwise ?_ (List.pairwise_map.mp order) (List.pairwise_map.mp order')
  intro a b _ _ first second
  rw [textBefore_asymm first] at second
  cases second

end Members

namespace Json

variable {v w : Json}

/-- What a document stands for, part by part: an array for the array of what its items stand for,
and an object for the names in order, each with what the last member of its name stands for. -/
inductive StandsFor : Json → Json → Prop
  | scalar {v : Json} (array : v.kind ≠ .array) (object : v.kind ≠ .object) : StandsFor v v
  | arr {items values : List Json} (each : List.Forall₂ StandsFor items values) :
    StandsFor (.arr items) (.arr values)
  | obj {ms values : Members} (order : values.Increasing)
    (each : ∀ name, Option.Rel StandsFor (ms.last? name) (values.find? name)) :
    StandsFor (.obj ms) (.obj values)

theorem find?_canonical (ms : Members) (name : String) :
    (canonicalMembers ms).sorted.find? name = (ms.last? name).map canonical := by
  rw [Members.find?_sorted, canonicalMembers_eq_map, Members.last?_map]

theorem standsFor_canonical (v : Json) : v.StandsFor v.canonical := by
  induction v with
  | null | bool | num | str => exact .scalar nofun nofun
  | arr items ih =>
    rw [canonical, canonicalItems_eq_map]
    exact .arr (List.forall₂_map_right_iff.mpr (List.forall₂_same.mpr ih))
  | obj ms ih =>
    refine .obj (Members.increasing_sorted _) fun name => ?_
    rw [find?_canonical]
    cases last : ms.last? name with
    | none => exact .none
    | some value => exact .some (ih _ (Members.mem_of_last? last))

theorem eq_canonical_of_standsFor (h : v.StandsFor w) : w = v.canonical := by
  induction v generalizing w with
  | null | bool | num | str =>
    cases h
    rfl
  | arr items ih =>
    cases h with
    | scalar array => exact absurd rfl array
    | @arr _ values each =>
      rw [canonical, canonicalItems_eq_map]
      congr 1
      induction each with
      | nil => rfl
      | cons first _ rest =>
        rw [List.map_cons, ih _ List.mem_cons_self first,
          rest fun v there => ih v (List.mem_cons_of_mem _ there)]
  | obj ms ih =>
    cases h with
    | scalar _ object => exact absurd rfl object
    | @obj _ values order each =>
      rw [canonical]
      congr 1
      refine Members.ext_of_increasing order (Members.increasing_sorted _) fun name => ?_
      rw [find?_canonical]
      have related := each name
      generalize values.find? name = found at related ⊢
      cases last : ms.last? name with
      | none =>
        rw [last] at related
        cases related
        rfl
      | some value =>
        rw [last] at related
        cases related with
        | some stands => rw [Option.map_some, ih _ (Members.mem_of_last? last) stands]

/-- Every document stands for exactly one value. -/
theorem standsFor_iff : v.StandsFor w ↔ w = v.canonical :=
  ⟨eq_canonical_of_standsFor, fun same => same ▸ standsFor_canonical v⟩

end Json

end CobolDialects
