import CobolDialects.Json.Value
import Mathlib.Tactic.Common

/-!
# Members of objects

`Members.upsert` keeps the order in which names first came; `Members.insert` keeps names in order.
Both give a look-up what was put in last, and `ordered` and `sorted`, which repeat them, change
nothing in a list that already has the shape they establish.
-/

namespace CobolDialects

/-! ## The order of texts -/

section Precedes

variable {α : Type} [DecidableEq α] {less : α → α → Bool}

theorem precedes_irrefl (as : List α) : precedes less as as = false := by
  induction as with
  | nil => rfl
  | cons a as ih => simp [precedes, ih]

theorem precedes_trans (irrefl : ∀ a, less a a = false)
    (trans : ∀ a b c, less a b → less b c → less a c) {as bs cs : List α}
    (first : precedes less as bs) (second : precedes less bs cs) : precedes less as cs := by
  induction as generalizing bs cs with
  | nil => cases bs <;> cases cs <;> simp_all [precedes]
  | cons a as ih =>
    cases bs with
    | nil => simp [precedes] at first
    | cons b bs =>
      cases cs with
      | nil => simp [precedes] at second
      | cons c cs =>
        simp only [precedes] at first second ⊢
        by_cases ab : a = b
        · subst ab
          by_cases ac : a = c
          · rw [if_pos rfl] at first
            rw [if_pos ac] at second ⊢
            exact ih first second
          · rw [if_neg ac] at second ⊢
            exact second
        · rw [if_neg ab] at first
          by_cases bc : b = c
          · rw [← bc, if_neg ab]
            exact first
          · rw [if_neg bc] at second
            have less := trans a b c first second
            rw [if_neg (by rintro rfl; simp [irrefl] at less)]
            exact less

theorem precedes_total (total : ∀ a b, less a b = false → a ≠ b → less b a) {as bs : List α}
    (h : precedes less as bs = false) (ne : as ≠ bs) : precedes less bs as := by
  induction as generalizing bs with
  | nil => cases bs <;> simp_all [precedes]
  | cons a as ih =>
    cases bs with
    | nil => rfl
    | cons b bs =>
      simp only [precedes] at h ⊢
      split_ifs at h with ab
      · rw [if_pos ab.symm]
        exact ih h fun tail => ne (by rw [ab, tail])
      · rw [if_neg (Ne.symm ab)]
        exact total a b h ab

end Precedes

@[simp] theorem textBefore_irrefl (a : String) : textBefore a a = false := precedes_irrefl _

theorem textBefore_trans {a b c : String} (first : textBefore a b) (second : textBefore b c) :
    textBefore a c := by
  refine precedes_trans (fun x => ?_) (fun x y z => ?_) first second
  · simp [Bool.eq_false_iff]
  · simp only [Nat.blt_eq]
    omega

theorem textBefore_total {a b : String} (h : textBefore a b = false) (ne : a ≠ b) :
    textBefore b a := by
  refine precedes_total ?_ h fun lists => ne (String.toList_inj.mp lists)
  intro x y notLess ne
  have codes : x.toNat ≠ y.toNat := fun h => ne (Char.toNat_inj.mp h)
  simp only [Bool.eq_false_iff, ne_eq, Nat.blt_eq] at notLess ⊢
  omega

theorem textBefore_asymm {a b : String} (h : textBefore a b) : textBefore b a = false := by
  by_contra back
  have self := textBefore_trans h (by simpa using back)
  simp at self

namespace Members

/-- The names of members. -/
def names (ms : Members) : List String := ms.map (·.1)

@[simp] theorem names_nil : names [] = [] := rfl

@[simp] theorem names_cons (m : String × Json) (ms : Members) :
    names (m :: ms) = m.1 :: names ms := rfl

@[simp] theorem names_append (as bs : Members) : names (as ++ bs) = names as ++ names bs :=
  List.map_append

variable {name : String} {value : Json} {ms : Members}

theorem mem_of_find? {v : Json} (h : ms.find? name = some v) : (name, v) ∈ ms := by
  induction ms with
  | nil => simp [find?] at h
  | cons m ms ih =>
    simp only [find?] at h
    split_ifs at h with same
    · obtain rfl := Option.some.inj h
      exact same ▸ List.mem_cons_self
    · exact List.mem_cons_of_mem _ (ih h)

theorem find?_eq_none : ms.find? name = none ↔ name ∉ ms.names := by
  induction ms with
  | nil => simp [find?]
  | cons m ms ih => by_cases same : m.1 = name <;> simp [find?, same, ih, Ne.symm]

/-- Where the names differ, a look-up finds whatever is there. -/
theorem find?_eq_some (distinct : ms.names.Nodup) :
    ms.find? name = some value ↔ (name, value) ∈ ms := by
  refine ⟨mem_of_find?, fun there => ?_⟩
  induction ms with
  | nil => simp at there
  | cons m ms ih =>
    obtain ⟨new, rest⟩ := List.nodup_cons.mp distinct
    rcases List.mem_cons.mp there with rfl | there
    · simp [find?]
    · have other : m.1 ≠ name := by
        rintro rfl
        exact new (List.mem_map.mpr ⟨_, there, rfl⟩)
      rw [find?, if_neg other, ih rest there]

theorem eq_nil_of_find? (h : ∀ name, ms.find? name = none) : ms = [] := by
  cases ms with
  | nil => rfl
  | cons m ms => simpa [find?] using h m.1

/-! ## Replacing in place -/

theorem find?_upsert (ms : Members) (name : String) (value : Json) (other : String) :
    (ms.upsert name value).find? other = if other = name then some value else ms.find? other := by
  induction ms with
  | nil => simp [upsert, find?, eq_comm]
  | cons m ms ih =>
    simp only [upsert]
    split_ifs with same found found
    · simp [find?, same, found]
    · simp [find?, same, Ne.symm found]
    · subst found
      simpa [find?, same] using ih
    · simp only [find?, ih, if_neg found]

/-- Of two values that are put under one name only the second one counts. -/
theorem upsert_upsert (ms : Members) (name : String) (first second : Json) :
    (ms.upsert name first).upsert name second = ms.upsert name second := by
  induction ms with
  | nil => simp [upsert]
  | cons m ms ih =>
    by_cases same : m.1 = name
    · simp [upsert, same]
    · simp [upsert, same, ih]

theorem names_upsert_of_mem (h : name ∈ ms.names) : (ms.upsert name value).names = ms.names := by
  induction ms with
  | nil => simp at h
  | cons m ms ih =>
    simp only [upsert]
    split_ifs with same
    · rfl
    · simp only [names_cons, List.mem_cons, Ne.symm same, false_or] at h
      simp [ih h]

/-- A name that is new is added at the end. -/
theorem upsert_of_not_mem (h : name ∉ ms.names) : ms.upsert name value = ms ++ [(name, value)] := by
  induction ms with
  | nil => rfl
  | cons m ms ih =>
    simp only [names_cons, List.mem_cons, not_or] at h
    simp [upsert, Ne.symm h.1, ih h.2]

/-- A name that is there keeps its place. -/
theorem upsert_of_split {before after : Members} {old : Json} (h : name ∉ before.names) :
    (before ++ (name, old) :: after).upsert name value = before ++ (name, value) :: after := by
  induction before with
  | nil => simp [upsert]
  | cons m before ih =>
    simp only [names_cons, List.mem_cons, not_or] at h
    simp [upsert, Ne.symm h.1, ih h.2]

/-- Replacing a value with itself changes nothing. -/
theorem upsert_of_find? (h : ms.find? name = some value) : ms.upsert name value = ms := by
  induction ms with
  | nil => cases h
  | cons m ms ih =>
    simp only [find?] at h
    simp only [upsert]
    split_ifs at h ⊢ with same
    · obtain rfl := Option.some.inj h
      rfl
    · rw [ih h]

theorem nodup_upsert (h : ms.names.Nodup) : (ms.upsert name value).names.Nodup := by
  by_cases known : name ∈ ms.names
  · rwa [names_upsert_of_mem known]
  · rw [upsert_of_not_mem known, names_append]
    simpa [List.nodup_append, h] using fun other there (same : other = name) => known (same ▸ there)

theorem mem_upsert {m : String × Json} (h : m ∈ ms.upsert name value) :
    m = (name, value) ∨ m ∈ ms := by
  induction ms with
  | nil => simpa [upsert] using h
  | cons n ms ih =>
    simp only [upsert] at h
    split_ifs at h with same
    · rcases List.mem_cons.mp h with rfl | rest
      · exact .inl (by rw [same])
      · exact .inr (List.mem_cons_of_mem _ rest)
    · rcases List.mem_cons.mp h with rfl | rest
      · exact .inr List.mem_cons_self
      · exact (ih rest).imp_right (List.mem_cons_of_mem _)

/-- Where a name occurs once its old value goes. -/
theorem mem_upsert_of_nodup {m : String × Json} (distinct : ms.names.Nodup)
    (h : m ∈ ms.upsert name value) : m = (name, value) ∨ m ∈ ms ∧ m.1 ≠ name := by
  by_cases same : m.1 = name
  · subst same
    have found := (find?_eq_some (nodup_upsert distinct)).mpr h
    rw [find?_upsert, if_pos rfl] at found
    exact .inl (Prod.ext rfl (Option.some.inj found).symm)
  · exact (mem_upsert h).imp_right fun there => ⟨there, same⟩

/-! ## Each name once -/

/-- A fold that puts members in one by one holds only what was put in. -/
theorem mem_foldl {step : Members → String × Json → Members}
    (puts : ∀ done n m, m ∈ step done n → m = n ∨ m ∈ done) {done : Members} {m : String × Json}
    (h : m ∈ ms.foldl step done) : m ∈ done ∨ m ∈ ms := by
  induction ms generalizing done with
  | nil => exact .inl h
  | cons n ms ih =>
    rcases ih h with there | there
    · rcases puts done n m there with rfl | there
      · exact .inr List.mem_cons_self
      · exact .inl there
    · exact .inr (List.mem_cons_of_mem _ there)

theorem foldl_upsert_of_nodup (done ms : Members) (h : (done ++ ms).names.Nodup) :
    ms.foldl (fun done m => done.upsert m.1 m.2) done = done ++ ms := by
  induction ms generalizing done with
  | nil => simp
  | cons m ms ih =>
    have fresh : m.1 ∉ done.names := by
      intro there
      rw [names_append, names_cons, List.nodup_append] at h
      exact h.2.2 _ there _ List.mem_cons_self rfl
    rw [List.foldl_cons, upsert_of_not_mem fresh, ih _ (by simpa using h)]
    simp

/-- Members whose names differ are kept as they are. -/
theorem ordered_of_nodup (h : ms.names.Nodup) : ms.ordered = ms := by
  simpa [ordered] using foldl_upsert_of_nodup [] ms h

theorem nodup_ordered (ms : Members) : ms.ordered.names.Nodup := by
  have run (done : Members) (h : done.names.Nodup) :
      (ms.foldl (fun done m => done.upsert m.1 m.2) done).names.Nodup := by
    induction ms generalizing done with
    | nil => exact h
    | cons m ms ih => exact ih _ (nodup_upsert h)
  exact run [] List.nodup_nil

theorem mem_ordered {m : String × Json} (h : m ∈ ms.ordered) : m ∈ ms := by
  simpa using mem_foldl (fun _ _ _ => mem_upsert) h

/-! ## Names in order -/

/-- The names come in order, each once. -/
def Increasing (ms : Members) : Prop := ms.names.Pairwise fun a b => textBefore a b = true

theorem mem_insert {m : String × Json} (h : m ∈ Members.insert name value ms) :
    m = (name, value) ∨ m ∈ ms := by
  induction ms with
  | nil => simpa [insert] using h
  | cons n ms ih =>
    simp only [insert] at h
    split_ifs at h with before same
    · exact List.mem_cons.mp h
    · rcases List.mem_cons.mp h with rfl | rest
      · exact .inl (by rw [same])
      · exact .inr (List.mem_cons_of_mem _ rest)
    · rcases List.mem_cons.mp h with rfl | rest
      · exact .inr List.mem_cons_self
      · exact (ih rest).imp_right (List.mem_cons_of_mem _)

theorem mem_names_insert {other : String} (h : other ∈ (Members.insert name value ms).names) :
    other = name ∨ other ∈ ms.names := by
  obtain ⟨m, there, rfl⟩ := List.mem_map.mp h
  rcases mem_insert there with rfl | there
  · exact .inl rfl
  · exact .inr (List.mem_map.mpr ⟨m, there, rfl⟩)

theorem increasing_insert (h : ms.Increasing) : (Members.insert name value ms).Increasing := by
  induction ms with
  | nil => simp [Increasing, insert]
  | cons m ms ih =>
    obtain ⟨above, rest⟩ := List.pairwise_cons.mp h
    simp only [insert]
    split_ifs with before same
    · refine List.pairwise_cons.mpr ⟨fun other there => ?_, h⟩
      rcases List.mem_cons.mp there with rfl | there
      · exact before
      · exact textBefore_trans before (above other there)
    · exact h
    · refine List.pairwise_cons.mpr ⟨fun other there => ?_, ih rest⟩
      rcases mem_names_insert there with rfl | there
      · exact textBefore_total (by simpa using before) (Ne.symm same)
      · exact above other there

theorem nodup_of_increasing (h : ms.Increasing) : ms.names.Nodup := by
  refine List.Pairwise.imp ?_ h
  rintro name _ before rfl
  simp at before

/-- A name that comes after all others is added at the end. -/
theorem insert_last (h : ∀ other ∈ ms.names, textBefore other name = true) :
    Members.insert name value ms = ms ++ [(name, value)] := by
  induction ms with
  | nil => rfl
  | cons m ms ih =>
    have before := h m.1 List.mem_cons_self
    have differ : m.1 ≠ name := by
      rintro rfl
      simp at before
    simp [insert, textBefore_asymm before, differ,
      ih fun other there => h other (List.mem_cons_of_mem _ there)]

theorem foldl_insert_of_increasing (done ms : Members) (h : (done ++ ms).Increasing) :
    ms.foldl (fun done m => done.insert m.1 m.2) done = done ++ ms := by
  induction ms generalizing done with
  | nil => simp
  | cons m ms ih =>
    have last : ∀ other ∈ done.names, textBefore other m.1 = true := by
      intro other there
      rw [Increasing, names_append, List.pairwise_append] at h
      exact h.2.2 _ there _ List.mem_cons_self
    rw [List.foldl_cons, insert_last last, ih _ (by simpa [Increasing] using h)]
    simp

/-- Members whose names are in order are kept as they are. -/
theorem sorted_of_increasing (h : ms.Increasing) : ms.sorted = ms := by
  simpa [sorted] using foldl_insert_of_increasing [] ms h

theorem increasing_sorted (ms : Members) : ms.sorted.Increasing := by
  have run (done : Members) (h : done.Increasing) :
      (ms.foldl (fun done m => done.insert m.1 m.2) done).Increasing := by
    induction ms generalizing done with
    | nil => exact h
    | cons m ms ih => exact ih _ (increasing_insert h)
  exact run [] List.Pairwise.nil

theorem mem_sorted {m : String × Json} (h : m ∈ ms.sorted) : m ∈ ms := by
  simpa using mem_foldl (fun _ _ _ => mem_insert) h

end Members

end CobolDialects
