import CobolDialects.Catalog
import CobolDialects.Proofs.Settings.Contract

/-!
# The stored list

A list of descriptors is stored as a value from which exactly that list is read, whatever texts the
descriptors are made of, and which every store takes. So the operations of the catalog are careful
actions.
-/

namespace CobolDialects

namespace Descriptor

theorem ofJson_toJson (d : Descriptor) : ofJson d.toJson = .ok d := by
  rfl

theorem ofJsonList_toJson (ds : List Descriptor) : ofJsonList (ds.map toJson) = .ok ds := by
  induction ds with
  | nil => rfl
  | cons d ds ih =>
    rw [List.map_cons, ofJsonList, ofJson_toJson, ih]
    rfl

theorem isCanonical_toJson (d : Descriptor) : d.toJson.IsCanonical := by
  rw [← canonical_record]
  exact Json.isCanonical_canonical _

end Descriptor

namespace Catalog

open Settings

@[simp] theorem decode_encode (key : String) (ds : List Descriptor) :
    decode key (encode ds) = .ok ds := by
  simp [decode, encode, Descriptor.ofJsonList_toJson]

theorem storable_encode (ds : List Descriptor) : Storable (encode ds) where
  canonical := Json.isCanonical_arr fun v there => by
    obtain ⟨d, -, rfl⟩ := List.mem_map.mp there
    exact d.isCanonical_toJson
  floatFree := Json.floatFreeItems_iff.mpr fun v there => by
    obtain ⟨d, -, rfl⟩ := List.mem_map.mp there
    rfl
  depth_lt := by
    have items : Json.depthItems (ds.map Descriptor.toJson) ≤ 1 := by
      refine Json.depthItems_le.mpr fun v there => ?_
      obtain ⟨d, -, rfl⟩ := List.mem_map.mp there
      exact Nat.le_refl 1
    rw [encode, Json.depth, Json.maxDepth]
    omega

/-! ## The operations are careful -/

theorem careful_list (key : String) : (list key).Careful := by
  refine ⟨fun _ => rfl, fun answer => ?_⟩
  cases answer <;> trivial

theorem careful_register (key : String) (d : Descriptor) : (register key d).Careful :=
  Action.careful_bind (careful_list key) fun ds =>
    ⟨storable_encode (upsert ds d), fun _ => rfl, trivial⟩

theorem careful_find (key name : String) : (find key name).Careful :=
  Action.careful_map (careful_list key) _

theorem careful_paths (key : String) : (paths key).Careful :=
  Action.careful_map (careful_list key) _

/-! ## What a value stands for -/

/-- The list that the value of a key stands for, if it has one. -/
def listOf (key : String) : Option Json → Except Error (List Descriptor)
  | none => .ok []
  | some v => decode key v

end Catalog

end CobolDialects
