import CobolDialects.Catalog
import Mathlib.Tactic.Common

/-!
# Registering descriptors one after the other

Registering a descriptor drops the entries of its name and adds it at the end. Of a list with any
number of descriptors registered there is a closed form: the old entries whose names were not
registered, and then of every registered name the descriptor that was registered last.
-/

namespace CobolDialects.Catalog

variable {ds old : List Descriptor} {d e : Descriptor}

/-- The descriptors that were the last ones of their names to be registered, in the order in which
they were. -/
def latest : List Descriptor → List Descriptor
  | [] => []
  | d :: rest => if rest.any (·.name = d.name) then latest rest else d :: latest rest

/-- The list with descriptors registered in turn. -/
def upsertAll (old ds : List Descriptor) : List Descriptor := ds.foldl upsert old

/-- The entries whose names are not among those of some descriptors. -/
def untouched (ds old : List Descriptor) : List Descriptor :=
  old.filter fun e => !ds.any (·.name = e.name)

/-! ## One descriptor -/

theorem getLast?_upsert (old : List Descriptor) (d : Descriptor) :
    (upsert old d).getLast? = some d := by
  simp [upsert]

/-- Only the last of the registrations of a name counts. -/
theorem upsert_upsert_of_name (old : List Descriptor) (same : e.name = d.name) :
    upsert (upsert old d) e = upsert old e := by
  simp [upsert, List.filter_filter, same]

/-- Registering a descriptor again changes nothing. -/
theorem upsert_upsert (old : List Descriptor) (d : Descriptor) :
    upsert (upsert old d) d = upsert old d := upsert_upsert_of_name old rfl

/-- Two names leave their descriptors behind the same entries, in the order of registration. -/
theorem upsert_upsert_of_ne (old : List Descriptor) (differs : e.name ≠ d.name) :
    upsert (upsert old d) e =
      old.filter (fun x => decide (x.name ≠ d.name) && decide (x.name ≠ e.name)) ++ [d, e] := by
  have later : [d].filter (·.name ≠ e.name) = [d] :=
    List.filter_cons_of_pos (decide_eq_true differs.symm)
  simp only [upsert, List.filter_append, List.filter_filter, later, List.append_assoc]
  congr 2
  funext x
  exact Bool.and_comm _ _

theorem find?_upsert (old : List Descriptor) (d : Descriptor) (name : String) :
    (upsert old d).find? (·.name = name) =
      if name = d.name then some d else old.find? (·.name = name) := by
  induction old with
  | nil => simp [upsert, eq_comm]
  | cons x old ih =>
    rw [upsert] at ih ⊢
    by_cases dropped : x.name = d.name
    · rw [List.filter_cons_of_neg (by simp [dropped]), ih]
      by_cases asked : name = d.name
      · rw [if_pos asked, if_pos asked]
      · rw [if_neg asked, if_neg asked, List.find?_cons_of_neg]
        simpa [dropped] using Ne.symm asked
    · rw [List.filter_cons_of_pos (by simp [dropped]), List.cons_append]
      by_cases found : x.name = name
      · rw [List.find?_cons_of_pos (by simp [found]), if_neg (found ▸ dropped),
          List.find?_cons_of_pos (by simp [found])]
      · rw [List.find?_cons_of_neg (by simp [found]), ih, List.find?_cons_of_neg (by simp [found])]

/-- The entries of the name make room for one. -/
theorem length_upsert (old : List Descriptor) (d : Descriptor) :
    (upsert old d).length + old.countP (·.name = d.name) = old.length + 1 := by
  have parted := List.length_eq_countP_add_countP (fun x : Descriptor => decide (x.name = d.name))
    (l := old)
  simp only [upsert, List.length_append, List.length_singleton, ← List.countP_eq_length_filter]
  simp only [decide_not, decide_eq_true_eq] at parted ⊢
  omega

theorem length_upsert_of_nodup (h : (old.map (·.name)).Nodup) (d : Descriptor) :
    (upsert old d).length = old.length + if old.any (·.name = d.name) then 0 else 1 := by
  have once : old.countP (·.name = d.name) = if old.any (·.name = d.name) then 1 else 0 := by
    have count := h.count (a := d.name)
    rw [List.count, List.countP_map] at count
    calc old.countP (·.name = d.name)
      _ = if d.name ∈ old.map (·.name) then 1 else 0 := by
          rw [← count]
          exact List.countP_congr fun x _ => by simp
      _ = if old.any (·.name = d.name) then 1 else 0 := by simp
  have total := length_upsert old d
  split_ifs at once ⊢ <;> omega

theorem nodup_upsert (h : (old.map (·.name)).Nodup) (d : Descriptor) :
    ((upsert old d).map (·.name)).Nodup := by
  rw [upsert, List.map_append, List.nodup_append]
  refine ⟨h.sublist (List.filter_sublist.map _), by simp, ?_⟩
  simp only [List.mem_map, List.mem_filter, decide_eq_true_eq, List.mem_singleton]
  rintro name ⟨e, ⟨-, differs⟩, rfl⟩ _ ⟨_, rfl, rfl⟩
  exact differs

/-! ## The last ones -/

theorem mem_of_mem_latest (h : d ∈ latest ds) : d ∈ ds := by
  induction ds with
  | nil => exact h
  | cons e ds ih =>
    rw [latest] at h
    split_ifs at h with again
    · exact List.mem_cons_of_mem _ (ih h)
    · rcases List.mem_cons.mp h with rfl | h
      · exact List.mem_cons_self
      · exact List.mem_cons_of_mem _ (ih h)

/-- Every registered name has a last descriptor. -/
theorem exists_latest (h : d ∈ ds) : ∃ e ∈ latest ds, e.name = d.name := by
  induction ds generalizing d with
  | nil => simp at h
  | cons e ds ih =>
    rw [latest]
    split_ifs with again
    · rcases List.mem_cons.mp h with rfl | h
      · obtain ⟨later, there, same⟩ := List.any_eq_true.mp again
        obtain ⟨last, inside, name⟩ := ih there
        exact ⟨last, inside, name.trans (of_decide_eq_true same)⟩
      · exact ih h
    · rcases List.mem_cons.mp h with rfl | h
      · exact ⟨d, List.mem_cons_self, rfl⟩
      · obtain ⟨last, inside, name⟩ := ih h
        exact ⟨last, List.mem_cons_of_mem _ inside, name⟩

theorem nodup_latest (ds : List Descriptor) : ((latest ds).map (·.name)).Nodup := by
  induction ds with
  | nil => simp [latest]
  | cons d ds ih =>
    rw [latest]
    split_ifs with again
    · exact ih
    · refine List.nodup_cons.mpr ⟨fun there => again ?_, ih⟩
      obtain ⟨e, inside, same⟩ := List.mem_map.mp there
      exact List.any_eq_true.mpr ⟨e, mem_of_mem_latest inside, decide_eq_true same⟩

/-! ## The closed form -/

theorem upsertAll_append (old ds more : List Descriptor) :
    upsertAll old (ds ++ more) = upsertAll (upsertAll old ds) more := List.foldl_append

theorem mem_untouched : e ∈ untouched ds old ↔ e ∈ old ∧ ∀ d ∈ ds, d.name ≠ e.name := by
  simp [untouched]

/-- What is left of the old entries comes first, and then the last descriptor of every name. -/
theorem upsertAll_eq (old ds : List Descriptor) :
    upsertAll old ds = untouched ds old ++ latest ds := by
  induction ds generalizing old with
  | nil =>
    rw [untouched, latest, List.append_nil]
    exact (List.filter_eq_self.mpr fun _ _ => rfl).symm
  | cons d ds ih =>
    have step : upsertAll old (d :: ds) = upsertAll (upsert old d) ds := rfl
    have kept : untouched ds (old.filter (·.name ≠ d.name)) = untouched (d :: ds) old := by
      rw [untouched, List.filter_filter, untouched]
      refine List.filter_congr fun e _ => ?_
      simp [Bool.and_comm, eq_comm]
    rw [step, ih, upsert, untouched, List.filter_append, ← untouched, kept, latest]
    split_ifs with again
    · simp [again]
    · simp [Bool.eq_false_iff.mpr again]

theorem nodup_upsertAll (h : (old.map (·.name)).Nodup) :
    ((upsertAll old ds).map (·.name)).Nodup := by
  induction ds generalizing old with
  | nil => exact h
  | cons d ds ih => exact ih (nodup_upsert h d)

theorem getLast?_upsertAll_append (old ds : List Descriptor) (d : Descriptor) :
    (upsertAll old (ds ++ [d])).getLast? = some d := by
  rw [upsertAll_append]
  exact getLast?_upsert _ d

/-- Every registered name occurs exactly once. -/
theorem countP_upsertAll (h : d ∈ ds) : (upsertAll old ds).countP (·.name = d.name) = 1 := by
  obtain ⟨e, there, same⟩ := exists_latest h
  have none : (untouched ds old).countP (·.name = d.name) = 0 := by
    refine List.countP_eq_zero.mpr fun x inside name => ?_
    exact (mem_untouched.mp inside).2 d h (of_decide_eq_true name).symm
  have once := (nodup_latest ds).count (a := d.name)
  rw [if_pos (List.mem_map.mpr ⟨e, there, same⟩), List.count, List.countP_map] at once
  rw [upsertAll_eq, List.countP_append, none, Nat.zero_add, ← once]
  exact List.countP_congr fun x _ => by simp

/-- A look-up of a registered name finds a descriptor that was registered under it. -/
theorem find?_upsertAll (old : List Descriptor) (h : d ∈ ds) : ∃ e ∈ ds, e.name = d.name ∧
    (upsertAll old ds).find? (·.name = d.name) = some e := by
  obtain ⟨last, there, same⟩ := exists_latest h
  rw [upsertAll_eq]
  cases found : (untouched ds old ++ latest ds).find? (·.name = d.name) with
  | none =>
    have absent := List.find?_eq_none.mp found last (List.mem_append_right _ there)
    exact absurd (decide_eq_true same) absent
  | some e =>
    have name : e.name = d.name := by simpa using List.find?_some found
    refine ⟨e, ?_, name, rfl⟩
    rcases List.mem_append.mp (List.mem_of_find?_eq_some found) with old | last
    · exact absurd name.symm ((mem_untouched.mp old).2 d h)
    · exact mem_of_mem_latest last

end CobolDialects.Catalog
