import CobolDialects.Proofs.Catalog.Calls
import CobolDialects.Proofs.Catalog.Elements

/-!
# Which values are lists

The registry lists what the value under its key stands for. A value of another type is reported by
its type, and an array by the fault of the first of its elements that is no descriptor.
-/

namespace CobolDialects.Catalog

open Settings

/-- A value stands for a list: it is an array, and its elements stand for the descriptors, one for
one. -/
inductive Lists : Json → List Descriptor → Prop
  | intro {items : List Json} {ds : List Descriptor}
    (elements : List.Forall₂ Descriptor.Denotes items ds) : Lists (.arr items) ds

/-- What is reported of a value that stands for no list: its type, or the fault of its first element
that stands for no descriptor. -/
inductive Unlisted : Json → ShapeFault → Prop
  | notArray {v : Json} (kind : v.kind ≠ .array) : Unlisted v (.notArray v.kind)
  | element {front rest : List Json} {v : Json} {e : Descriptor.DecodeError}
    (accepted : ∀ w ∈ front, ∃ d, Descriptor.Denotes w d) (faulty : Descriptor.Faulty v e) :
    Unlisted (.arr (front ++ v :: rest)) (.element e)

variable {key : String} {v : Json} {ds : List Descriptor} {e : Error}

theorem decode_eq_ok (canonical : v.IsCanonical) : decode key v = .ok ds ↔ Lists v ds := by
  cases v with
  | arr items =>
    have elements := @Descriptor.ofJsonList_eq_ok items ds fun w =>
      Json.isCanonical_of_mem canonical
    constructor
    · intro read
      refine .intro (elements.mp ?_)
      cases listed : Descriptor.ofJsonList items with
      | error e => simp [decode, listed] at read
      | ok others => simpa [decode, listed] using read
    · rintro ⟨denotes⟩
      rw [decode, elements.mpr denotes]
  | null | bool | num | str | obj =>
    constructor
    · intro read
      cases read
    · intro lists
      cases lists

theorem decode_eq_error (canonical : v.IsCanonical) :
    decode key v = .error e ↔ ∃ fault, Unlisted v fault ∧ e = .invalidShape key fault := by
  cases v with
  | arr items =>
    have elements (fault : Descriptor.DecodeError) := @Descriptor.ofJsonList_eq_error items fault
      fun w => Json.isCanonical_of_mem canonical
    constructor
    · intro failed
      cases listed : Descriptor.ofJsonList items with
      | ok ds => simp [decode, listed] at failed
      | error fault =>
        obtain ⟨front, w, rest, rfl, accepted, faulty⟩ := (elements fault).mp listed
        exact ⟨_, .element accepted faulty, by simpa [decode, listed, eq_comm] using failed⟩
    · rintro ⟨fault, unlisted, rfl⟩
      cases unlisted with
      | notArray kind => exact absurd rfl kind
      | @element front rest w fault accepted faulty =>
        rw [decode, (elements fault).mpr ⟨front, w, rest, rfl, accepted, faulty⟩]
  | null | bool | num | str | obj =>
    constructor
    · intro failed
      cases failed
      exact ⟨_, .notArray (by simp [Json.kind]), rfl⟩
    · rintro ⟨fault, unlisted, rfl⟩
      cases unlisted
      rfl

/-- Whatever value a store has under the key of a catalog, the catalog lists the descriptors that it
stands for, and otherwise fails with the wrong shape of the value under that key. -/
theorem list_of_value {σ : Type} {store : Store σ} {s : σ}
    (stored : (store.get key s).result = .ok (some v)) (canonical : v.IsCanonical) :
    let listing := ((list key).run store s).result
    (∀ ds, listing = .ok ds ↔ Lists v ds) ∧
      ∀ e, listing = .error e ↔ ∃ fault, Unlisted v fault ∧ e = .invalidShape key fault := by
  intro listing
  have decoded : listing = decode key v := by
    have listed := (makes_list store key s).result
    rwa [stored] at listed
  rw [decoded]
  exact ⟨fun ds => decode_eq_ok canonical, fun e => decode_eq_error canonical⟩

/-- Of an object with two members of the wrong type and two missing ones, the member whose name
comes first is reported, though the element behind it is no descriptor either. -/
theorem list_of_value_with_faults :
    let wide : Json := .obj [("description", .str ""), ("extensionId", .str "ext"),
      ("name", .str "idms"), ("owner_id", .null), ("path", .str "/p")]
    let short : Json := .arr [.str "daco", .str "/q", .str "", .str "ext"]
    let torn : Json := .obj [("description", .null), ("name", .bool true)]
    let table : Members := [("registry", .arr [wide, short, torn, .null])]
    ((list "registry").run Memory.store table).result =
      .error (.invalidShape "registry" (.element (.wrongType .null .string))) := by
  intro wide short torn table
  have canonical : (Json.arr [wide, short, torn, .null]).IsCanonical := by with_unfolding_all rfl
  have stored : (Memory.store.get "registry" table).result =
    .ok (some (.arr [wide, short, torn, .null])) := rfl
  have accepted : ∀ w ∈ [wide, short], ∃ d, Descriptor.Denotes w d := by
    refine List.forall_mem_cons.mpr ⟨⟨⟨"idms", "/p", "", "ext"⟩, .object fun f => ?_⟩,
      List.forall_mem_singleton.mpr ⟨⟨"daco", "/q", "", "ext"⟩, .array rfl⟩⟩
    cases f <;> rfl
  have faulty : Descriptor.Faulty torn (.wrongType .null .string) := by
    have there : Members.find? Descriptor.Field.description.label
      [("description", .null), ("name", .bool true)] = some .null := rfl
    refine .mistyped there nofun fun g w _ _ => ?_
    rw [Descriptor.Field.precedes_iff]
    cases g <;> decide
  have unlisted : Unlisted (.arr ([wide, short] ++ torn :: [.null])) _ := .element accepted faulty
  exact ((list_of_value stored canonical).2 _).mpr ⟨_, unlisted, rfl⟩

end CobolDialects.Catalog
