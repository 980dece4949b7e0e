import CobolDialects.Proofs.Json.Members

/-!
# Canonical values

The value that a document stands for stands for itself: it has its members in order, each name
once, at every depth. Taking the value of a document neither nests it deeper nor brings in a
floating-point number.
-/

namespace CobolDialects.Json

/-! ## Induction over values -/

/-- What holds of an array or an object whenever it holds of all values directly in it. -/
@[induction_eliminator]
theorem valueInduction {P : Json → Prop} (null : P .null) (bool : ∀ b, P (.bool b))
    (num : ∀ n, P (.num n)) (str : ∀ s, P (.str s))
    (arr : ∀ items, (∀ v ∈ items, P v) → P (.arr items))
    (obj : ∀ members : Members, (∀ m ∈ members, P m.2) → P (.obj members)) (v : Json) : P v := by
  refine Json.rec (motive_1 := P) (motive_2 := fun items => ∀ v ∈ items, P v)
    (motive_3 := fun members => ∀ m ∈ members, P m.2) (motive_4 := fun m => P m.2)
    null bool num str arr obj ?_ ?_ ?_ ?_ ?_ v
  · simp
  · simp +contextual
  · simp
  · simp +contextual
  · simp

/-! ## The parts of a value -/

theorem canonicalItems_eq_map (items : List Json) : canonicalItems items = items.map canonical := by
  induction items with
  | nil => rfl
  | cons v items ih => rw [canonicalItems, ih, List.map_cons]

theorem canonicalMembers_eq_map (ms : Members) :
    canonicalMembers ms = ms.map fun m => (m.1, m.2.canonical) := by
  induction ms with
  | nil => rfl
  | cons m ms ih => rw [canonicalMembers, ih, List.map_cons]

theorem depthItems_cons_le {v : Json} {n : Nat} (items : List Json) :
    depthItems (v :: items) ≤ n ↔ v.depth ≤ n ∧ depthItems items ≤ n := Nat.max_le

theorem depthItems_le {items : List Json} {n : Nat} :
    depthItems items ≤ n ↔ ∀ v ∈ items, v.depth ≤ n := by
  induction items with
  | nil => simp [depthItems]
  | cons v items ih => rw [depthItems_cons_le, ih, List.forall_mem_cons]

theorem depthMembers_cons_le {name : String} {v : Json} {n : Nat} (ms : Members) :
    depthMembers ((name, v) :: ms) ≤ n ↔ v.depth ≤ n ∧ depthMembers ms ≤ n := Nat.max_le

theorem depthMembers_le {ms : Members} {n : Nat} :
    depthMembers ms ≤ n ↔ ∀ m ∈ ms, m.2.depth ≤ n := by
  induction ms with
  | nil => simp [depthMembers]
  | cons m ms ih => rw [depthMembers_cons_le, ih, List.forall_mem_cons]

/-! ## Canonical values -/

/-- A value, as opposed to a document that stands for one: members are in order and differ in their
names. -/
def IsCanonical (v : Json) : Prop := v.canonical = v

theorem canonicalItems_of_canonical {items : List Json} (h : ∀ v ∈ items, v.IsCanonical) :
    canonicalItems items = items := by
  rw [canonicalItems_eq_map]
  exact (List.map_congr_left h).trans (List.map_id _)

theorem canonicalMembers_of_canonical {ms : Members} (h : ∀ m ∈ ms, m.2.IsCanonical) :
    canonicalMembers ms = ms := by
  rw [canonicalMembers_eq_map]
  exact (List.map_congr_left fun m there => by rw [h m there]; rfl).trans (List.map_id _)

theorem isCanonical_arr {items : List Json} (h : ∀ v ∈ items, v.IsCanonical) :
    (Json.arr items).IsCanonical := by
  rw [IsCanonical, canonical, canonicalItems_of_canonical h]

theorem isCanonical_obj {ms : Members} (order : ms.Increasing) (h : ∀ m ∈ ms, m.2.IsCanonical) :
    (Json.obj ms).IsCanonical := by
  rw [IsCanonical, canonical, canonicalMembers_of_canonical h, Members.sorted_of_increasing order]

theorem isCanonical_of_mem {items : List Json} (h : (Json.arr items).IsCanonical) {v : Json}
    (there : v ∈ items) : v.IsCanonical := by
  rw [IsCanonical, canonical, Json.arr.injEq, canonicalItems_eq_map] at h
  exact List.map_inj_left.mp (h.trans (List.map_id items).symm) v there

theorem increasing_of_isCanonical {ms : Members} (h : (Json.obj ms).IsCanonical) :
    ms.Increasing := by
  rw [IsCanonical, canonical, Json.obj.injEq] at h
  exact h ▸ Members.increasing_sorted _

theorem forall_mem_canonicalMembers (P : Json → Prop) {ms : Members}
    (h : ∀ m ∈ ms, P m.2.canonical) : ∀ m ∈ canonicalMembers ms, P m.2 := by
  rw [canonicalMembers_eq_map]
  intro _ there
  obtain ⟨m, inside, rfl⟩ := List.mem_map.mp there
  exact h m inside

/-- The value of a document is one. -/
theorem isCanonical_canonical (v : Json) : v.canonical.IsCanonical := by
  induction v with
  | null | bool | num | str => rfl
  | arr items ih =>
    rw [canonical, canonicalItems_eq_map]
    exact isCanonical_arr (by simpa using ih)
  | obj ms ih =>
    exact isCanonical_obj (Members.increasing_sorted _) fun m there =>
      forall_mem_canonicalMembers IsCanonical ih m (Members.mem_sorted there)

theorem depth_canonical_le (v : Json) : v.canonical.depth ≤ v.depth := by
  induction v with
  | null | bool | num | str => exact Nat.le_refl _
  | arr items ih =>
    rw [canonical, depth, depth, canonicalItems_eq_map]
    refine Nat.succ_le_succ (depthItems_le.mpr ?_)
    simpa using fun v there => Nat.le_trans (ih v there) (depthItems_le.mp (Nat.le_refl _) v there)
  | obj ms ih =>
    rw [canonical, depth, depth]
    refine Nat.succ_le_succ (depthMembers_le.mpr fun m there => ?_)
    exact forall_mem_canonicalMembers (·.depth ≤ _)
      (fun m there => Nat.le_trans (ih m there) (depthMembers_le.mp (Nat.le_refl _) m there))
      m (Members.mem_sorted there)

/-! ## Values without floating-point numbers -/

mutual

/-- Whether all numbers in a value are integers. -/
def floatFree : Json → Bool
  | .num (.float _) => false
  | .arr items => floatFreeItems items
  | .obj members => floatFreeMembers members
  | _ => true

def floatFreeItems : List Json → Bool
  | [] => true
  | v :: rest => v.floatFree && floatFreeItems rest

def floatFreeMembers : Members → Bool
  | [] => true
  | (_, v) :: rest => v.floatFree && floatFreeMembers rest

end

theorem floatFreeItems_iff {items : List Json} :
    floatFreeItems items ↔ ∀ v ∈ items, v.floatFree := by
  induction items with
  | nil => simp [floatFreeItems]
  | cons v items ih => simp [floatFreeItems, ih]

theorem floatFreeMembers_iff {ms : Members} :
    floatFreeMembers ms ↔ ∀ m ∈ ms, m.2.floatFree := by
  induction ms with
  | nil => simp [floatFreeMembers]
  | cons m ms ih => simp [floatFreeMembers, ih]

end CobolDialects.Json
