import CobolDialects.Descriptor.Decode
import CobolDialects.Proofs.Json.Canonical
import Mathlib.Data.List.Forall2

/-!
# Which values are descriptors

A value may stand for a descriptor in two ways. Which one it stands for, and what is at fault with a
value that stands for none, is said here on the value itself, and reading comes to just that. The
faults of an element compete: a member of the wrong type comes before a missing one, the former in
the order of the bytes of their names, the latter in the order of the fields.
-/

namespace CobolDialects

namespace Descriptor

/-- The fields in the order in which they are declared. -/
def Field.all : List Field := [.name, .path, .description, .owner]

/-- The name of a field comes before that of another one, by their bytes. -/
def Field.Precedes (f g : Field) : Prop := nameBefore (bytesOf f.label) (bytesOf g.label)

/-- A value stands for a descriptor: as an object with the texts of the descriptor under the names
of its fields, whatever else it has, or as the array of these texts. -/
inductive Denotes : Json → Descriptor → Prop
  | object {ms : Members} {d : Descriptor}
    (fields : ∀ f : Field, ms.find? f.label = some (.str (d.get f))) : Denotes (.obj ms) d
  | array {items : List Json} {d : Descriptor}
    (texts : items = Field.all.map fun f => .str (d.get f)) : Denotes (.arr items) d

/-- What is reported of a value that stands for no descriptor. -/
inductive Faulty : Json → DecodeError → Prop
  | shape {v : Json} (array : v.kind ≠ .array) (object : v.kind ≠ .object) :
    Faulty v (.wrongType v .record)
  | mistyped {ms : Members} {f : Field} {v : Json} (there : ms.find? f.label = some v)
    (wrong : v.kind ≠ .string)
    (first : ∀ (g : Field) w, ms.find? g.label = some w → w.kind ≠ .string → ¬g.Precedes f) :
    Faulty (.obj ms) (.wrongType v .string)
  | missing {ms : Members} {f : Field}
    (typed : ∀ (g : Field) w, ms.find? g.label = some w → w.kind = .string)
    (first : Field.all.find? (fun g => (ms.find? g.label).isNone) = some f) :
    Faulty (.obj ms) (.missing f)
  | item {front rest : List Json} {v : Json} (texts : ∀ w ∈ front, w.kind = .string)
    (short : front.length < 4) (wrong : v.kind ≠ .string) :
    Faulty (.arr (front ++ v :: rest)) (.wrongType v .string)
  | tooFew {items : List Json} (texts : ∀ w ∈ items, w.kind = .string) (few : items.length < 4) :
    Faulty (.arr items) (.tooFew items.length)
  | tooMany {items : List Json} (texts : ∀ w ∈ items.take 4, w.kind = .string)
    (many : 4 < items.length) : Faulty (.arr items) (.tooMany items.length)

variable {v : Json} {ms : Members} {items : List Json} {d : Descriptor} {e : DecodeError}
  {ds : List Descriptor}

theorem Field.precedes_iff (f g : Field) : f.Precedes g ↔ textBefore f.label g.label := by
  cases f <;> cases g <;> unfold Precedes <;> decide

theorem Field.label_injective : ∀ {f g : Field}, f.label = g.label → f = g := by
  intro f g
  cases f <;> cases g <;> decide

theorem Field.ofLabel?_label (f : Field) : ofLabel? f.label = some f := by
  cases f <;> decide

theorem Field.label_of_ofLabel? {label : String} {f : Field} (h : ofLabel? label = some f) :
    f.label = label := by
  simpa using List.find?_some h

theorem kind_eq_string : v.kind = .string ↔ ∃ text, v = .str text := by
  cases v <;> simp [Json.kind]

theorem decodeString_eq_ok {text : String} :
    decodeString v = .ok text ↔ v = .str text := by
  cases v <;> simp [decodeString]

theorem decodeString_of_kind (wrong : v.kind ≠ .string) :
    decodeString v = .error (.wrongType v .string) := by
  cases v with
  | str text => exact absurd rfl wrong
  | null | bool | num | arr | obj => rfl

theorem field_eq_ok {f : Field} {text : String} :
    field ms f = .ok text ↔ ms.find? f.label = some (.str text) := by
  cases found : ms.find? f.label with
  | none => simp [field, found]
  | some v => simp [field, found, decodeString_eq_ok]

theorem bind_eq_ok {α β : Type} {x : Except DecodeError α} {f : α → Except DecodeError β} {b : β} :
    (x >>= f) = .ok b ↔ ∃ a, x = .ok a ∧ f a = .ok b := by
  cases x <;> simp [bind, Except.bind]

theorem bind_eq_error {α β : Type} {x : Except DecodeError α} {f : α → Except DecodeError β} :
    (x >>= f) = .error e ↔ x = .error e ∨ ∃ a, x = .ok a ∧ f a = .error e := by
  cases x <;> simp [bind, Except.bind]

/-! ## Objects -/

/-- The member that is found is one of the wrong type, and no other one comes before it. -/
theorem wrongField?_eq_some (order : ms.Increasing) (h : wrongField? ms = some v) :
    ∃ f : Field, (f.label, v) ∈ ms ∧ v.kind ≠ .string ∧
      ∀ (g : Field) w, (g.label, w) ∈ ms → w.kind ≠ .string → ¬g.Precedes f := by
  induction ms with
  | nil => cases h
  | cons m ms ih =>
    obtain ⟨label, w⟩ := m
    obtain ⟨above, behind⟩ := List.pairwise_cons.mp order
    rw [wrongField?] at h
    split_ifs at h with hit
    · obtain rfl := Option.some.inj h
      obtain ⟨f, found⟩ := Option.isSome_iff_exists.mp hit.1
      obtain rfl := Field.label_of_ofLabel? found
      refine ⟨f, List.mem_cons_self, hit.2, fun g x there wrong before => ?_⟩
      rw [Field.precedes_iff] at before
      rcases List.mem_cons.mp there with same | there
      · obtain ⟨same, -⟩ := Prod.mk.inj same
        simp [same] at before
      · have after := above g.label (List.mem_map_of_mem there)
        simp [textBefore_asymm after] at before
    · obtain ⟨f, there, wrong, first⟩ := ih behind h
      refine ⟨f, List.mem_cons_of_mem _ there, wrong, fun g x inside other => ?_⟩
      rcases List.mem_cons.mp inside with same | inside
      · obtain ⟨rfl, rfl⟩ := Prod.mk.inj same
        exact absurd ⟨by simp [Field.ofLabel?_label], other⟩ hit
      · exact first g x inside other

theorem wrongField?_eq_none : wrongField? ms = none ↔
    ∀ (f : Field) v, (f.label, v) ∈ ms → v.kind = .string := by
  induction ms with
  | nil => simp [wrongField?]
  | cons m ms ih =>
    obtain ⟨label, w⟩ := m
    rw [wrongField?]
    split_ifs with hit
    · obtain ⟨f, found⟩ := Option.isSome_iff_exists.mp hit.1
      obtain rfl := Field.label_of_ofLabel? found
      refine iff_of_false nofun fun all => ?_
      exact hit.2 (all f w List.mem_cons_self)
    · rw [ih]
      refine ⟨fun all f v there => ?_, fun all f v there => all f v (List.mem_cons_of_mem _ there)⟩
      rcases List.mem_cons.mp there with same | there
      · obtain ⟨rfl, rfl⟩ := Prod.mk.inj same
        by_contra wrong
        exact hit ⟨by simp [Field.ofLabel?_label], wrong⟩
      · exact all f v there

theorem ofMembers_eq_ok : ofMembers ms = .ok d ↔
    wrongField? ms = none ∧ ∀ f : Field, ms.find? f.label = some (.str (d.get f)) := by
  unfold ofMembers
  cases wrongField? ms with
  | some v => simp
  | none =>
    simp only [bind_eq_ok, field_eq_ok, true_and]
    constructor
    · rintro ⟨name, named, path, located, description, described, owner, owned, same⟩ f
      cases same
      cases f
      exacts [named, located, described, owned]
    · intro fields
      exact ⟨_, fields .name, _, fields .path, _, fields .description, _, fields .owner, rfl⟩

theorem field_of_typed (typed : ∀ (g : Field) w, ms.find? g.label = some w → w.kind = .string)
    (f : Field) : (∃ text, ms.find? f.label = some (.str text) ∧ field ms f = .ok text) ∨
      ms.find? f.label = none ∧ field ms f = .error (.missing f) := by
  cases found : ms.find? f.label with
  | none => exact .inr ⟨rfl, by simp [field, found]⟩
  | some v =>
    obtain ⟨text, rfl⟩ := kind_eq_string.mp (typed f v found)
    exact .inl ⟨text, rfl, by simp [field, found, decodeString]⟩

/-- If no field has the wrong type, the first one that is missing is reported. -/
theorem ofMembers_of_typed (typed : ∀ (g : Field) w, ms.find? g.label = some w → w.kind = .string)
    (none : wrongField? ms = none) : ofMembers ms = .error e ↔
      ∃ f, Field.all.find? (fun g => (ms.find? g.label).isNone) = some f ∧ e = .missing f := by
  rw [ofMembers, none, Field.all]
  rcases field_of_typed typed .name with ⟨name, named, readName⟩ | ⟨absent, failed⟩
  swap
  · simp [failed, absent, bind, Except.bind, eq_comm]
  rcases field_of_typed typed .path with ⟨path, located, readPath⟩ | ⟨absent, failed⟩
  swap
  · simp [readName, named, failed, absent, bind, Except.bind, eq_comm]
  rcases field_of_typed typed .description with ⟨description, told, readTold⟩ | ⟨absent, failed⟩
  swap
  · simp [readName, named, readPath, located, failed, absent, bind, Except.bind, eq_comm]
  rcases field_of_typed typed .owner with ⟨owner, owned, readOwner⟩ | ⟨absent, failed⟩
  swap
  · simp [readName, named, readPath, located, readTold, told, failed, absent, bind, Except.bind,
      eq_comm]
  · simp [readName, named, readPath, located, readTold, told, readOwner, owned, bind, Except.bind,
      pure, Except.pure]

theorem ofMembers_eq_error (order : ms.Increasing) :
    ofMembers ms = .error e ↔ Faulty (.obj ms) e := by
  have distinct := Members.nodup_of_increasing order
  have found (f : Field) (w : Json) : ms.find? f.label = some w ↔ (f.label, w) ∈ ms :=
    Members.find?_eq_some distinct
  cases hit : wrongField? ms with
  | none =>
    have typed : ∀ (g : Field) w, ms.find? g.label = some w → w.kind = .string := by
      intro g w there
      exact wrongField?_eq_none.mp hit g w ((found g w).mp there)
    rw [ofMembers_of_typed typed hit]
    constructor
    · rintro ⟨f, first, rfl⟩
      exact .missing typed first
    · intro faulty
      cases faulty with
      | shape array object => exact absurd rfl object
      | @mistyped _ f v there wrong first => exact absurd (typed f v there) wrong
      | @missing _ f typed first => exact ⟨f, first, rfl⟩
  | some v =>
    obtain ⟨f, there, wrong, first⟩ := wrongField?_eq_some order hit
    rw [ofMembers, hit]
    constructor
    · rintro ⟨⟩
      refine .mistyped ((found f v).mpr there) wrong fun g w inside => ?_
      exact first g w ((found g w).mp inside)
    · intro faulty
      cases faulty with
      | shape array object => exact absurd rfl object
      | @mistyped _ g w there' wrong' first' =>
        have one := first' f v ((found f v).mpr there) wrong
        have other := first g w ((found g w).mp there') wrong'
        rw [Field.precedes_iff] at one other
        have same : f.label = g.label := by
          by_contra ne
          exact other (textBefore_total (by simpa using one) ne)
        rw [Field.label_injective same, ← found] at there
        obtain rfl := Option.some.inj (there.symm.trans there')
        rfl
      | missing typed => exact absurd (typed f v ((found f v).mpr there)) wrong

/-! ## Arrays -/

theorem ofItems_eq_ok : ofItems items = .ok d ↔
    items = [.str d.name, .str d.path, .str d.description, .str d.owner] := by
  unfold ofItems
  split
  · simp only [bind_eq_ok, decodeString_eq_ok]
    constructor
    · rintro ⟨_, rfl, _, rfl, _, rfl, _, rfl, same⟩
      cases same
      rfl
    · intro same
      cases same
      exact ⟨_, rfl, _, rfl, _, rfl, _, rfl, rfl⟩
  · rename_i others
    refine iff_of_false ?_ fun same => others _ _ _ _ same
    rw [bind_eq_ok]
    rintro ⟨_, _, absurd⟩
    cases absurd

theorem mapM_of_texts (h : ∀ w ∈ items, w.kind = .string) :
    ∃ texts, items.mapM decodeString = .ok texts := by
  induction items with
  | nil => exact ⟨[], rfl⟩
  | cons w items ih =>
    obtain ⟨text, rfl⟩ := kind_eq_string.mp (h w List.mem_cons_self)
    obtain ⟨texts, read⟩ := ih fun x there => h x (List.mem_cons_of_mem _ there)
    exact ⟨text :: texts, by rw [List.mapM_cons, read]; rfl⟩

theorem mapM_of_split {front rest : List Json} (texts : ∀ w ∈ front, w.kind = .string)
    (wrong : v.kind ≠ .string) :
    (front ++ v :: rest).mapM decodeString = .error (.wrongType v .string) := by
  induction front with
  | nil =>
    rw [List.nil_append, List.mapM_cons, decodeString_of_kind wrong]
    rfl
  | cons w front ih =>
    obtain ⟨text, rfl⟩ := kind_eq_string.mp (texts w List.mem_cons_self)
    rw [List.cons_append, List.mapM_cons, ih fun x there => texts x (List.mem_cons_of_mem _ there)]
    rfl

/-- No more than four items are looked at. -/
theorem ofItems_of_error (h : (items.take 4).mapM decodeString = .error e) :
    ofItems items = .error e := by
  unfold ofItems
  split
  · rename_i name path description owner
    simp only [List.take_succ_cons, List.take_zero, List.mapM_cons, List.mapM_nil] at h
    cases one : decodeString name <;> cases two : decodeString path <;>
      cases three : decodeString description <;> cases four : decodeString owner <;>
      simp_all [bind, Except.bind, pure, Except.pure]
  · rw [h]
    rfl

theorem ofItems_of_length {texts : List String} (h : (items.take 4).mapM decodeString = .ok texts)
    (other : items.length ≠ 4) : ofItems items =
      .error (if items.length < 4 then .tooFew items.length else .tooMany items.length) := by
  unfold ofItems
  split
  · exact absurd rfl other
  · rw [h]
    rfl

theorem exists_ofItems_of_length (four : items.length = 4)
    (texts : ∀ w ∈ items, w.kind = .string) : ∃ d, ofItems items = .ok d := by
  match items, four with
  | [_, _, _, _], _ =>
    simp only [List.forall_mem_cons, kind_eq_string] at texts
    obtain ⟨⟨name, rfl⟩, ⟨path, rfl⟩, ⟨description, rfl⟩, ⟨owner, rfl⟩, -⟩ := texts
    exact ⟨⟨name, path, description, owner⟩, rfl⟩

theorem ofItems_eq_error : ofItems items = .error e ↔ Faulty (.arr items) e := by
  constructor
  · intro failed
    cases hit : (items.take 4).find? (fun w => decide (w.kind ≠ .string)) with
    | some v =>
      obtain ⟨wrong, front, rest, split, texts⟩ := List.find?_eq_some_iff_append.mp hit
      have wrong : v.kind ≠ .string := by simpa using wrong
      have texts : ∀ w ∈ front, w.kind = .string := fun w there => by simpa using texts w there
      have read := ofItems_of_error (split ▸ mapM_of_split texts wrong)
      obtain rfl := Except.error.inj (failed.symm.trans read)
      have short := congrArg List.length split
      simp only [List.length_take, List.length_append, List.length_cons] at short
      rw [← List.take_append_drop 4 items, split, List.append_assoc, List.cons_append]
      exact .item texts (by omega) wrong
    | none =>
      have texts : ∀ w ∈ items.take 4, w.kind = .string := fun w there => by
        simpa using List.find?_eq_none.mp hit w there
      obtain ⟨read, done⟩ := mapM_of_texts texts
      rcases Nat.lt_trichotomy items.length 4 with few | four | many
      · rw [ofItems_of_length done (by omega), if_pos few] at failed
        obtain rfl := Except.error.inj failed
        exact .tooFew (by rwa [List.take_of_length_le (by omega)] at texts) few
      · rw [List.take_of_length_le (by omega)] at texts
        obtain ⟨d, read⟩ := exists_ofItems_of_length four texts
        cases failed.symm.trans read
      · rw [ofItems_of_length done (by omega), if_neg (by omega)] at failed
        obtain rfl := Except.error.inj failed
        exact .tooMany texts many
  · intro faulty
    cases faulty with
    | shape array object => exact absurd rfl array
    | @item front rest v texts short wrong =>
      apply ofItems_of_error
      obtain ⟨n, left⟩ : ∃ n, 4 - front.length = n + 1 := ⟨3 - front.length, by omega⟩
      rw [List.take_append, List.take_of_length_le (by omega), left, List.take_succ_cons]
      exact mapM_of_split texts wrong
    | tooFew texts few =>
      obtain ⟨read, done⟩ := mapM_of_texts texts
      rw [← List.take_of_length_le (Nat.le_of_lt few)] at done
      rw [ofItems_of_length done (by omega), if_pos few]
    | tooMany texts many =>
      obtain ⟨read, done⟩ := mapM_of_texts texts
      rw [ofItems_of_length done (by omega), if_neg (by omega)]

/-! ## Elements -/

/-- A descriptor is read from just the values that stand for it. -/
theorem ofJson_eq_ok (canonical : v.IsCanonical) : ofJson v = .ok d ↔ Denotes v d := by
  constructor
  · intro read
    cases v with
    | obj ms => exact .object (ofMembers_eq_ok.mp read).2
    | arr items => exact .array (ofItems_eq_ok.mp read)
    | null | bool | num | str => cases read
  · intro denotes
    cases denotes with
    | @object ms _ fields =>
      refine ofMembers_eq_ok.mpr ⟨wrongField?_eq_none.mpr fun f w there => ?_, fields⟩
      have distinct := Members.nodup_of_increasing (Json.increasing_of_isCanonical canonical)
      have found := (Members.find?_eq_some distinct).mpr there
      obtain rfl := Option.some.inj ((fields f).symm.trans found)
      rfl
    | array texts => exact ofItems_eq_ok.mpr texts

theorem ofJson_eq_error (canonical : v.IsCanonical) : ofJson v = .error e ↔ Faulty v e := by
  cases v with
  | obj ms => exact ofMembers_eq_error (Json.increasing_of_isCanonical canonical)
  | arr items => exact ofItems_eq_error
  | null | bool | num | str =>
    constructor
    · rintro ⟨⟩
      exact .shape nofun nofun
    · rintro ⟨⟩
      rfl

theorem ofJsonList_eq_ok (canonical : ∀ w ∈ items, w.IsCanonical) :
    ofJsonList items = .ok ds ↔ List.Forall₂ Denotes items ds := by
  induction items generalizing ds with
  | nil => simp [ofJsonList, eq_comm]
  | cons v items ih =>
    obtain ⟨first, others⟩ := List.forall_mem_cons.mp canonical
    simp only [ofJsonList, bind_eq_ok, ofJson_eq_ok first, ih others,
      List.forall₂_cons_left_iff]
    constructor
    · rintro ⟨d, denotes, rest, listed, same⟩
      exact ⟨d, rest, denotes, listed, (Except.ok.inj same).symm⟩
    · rintro ⟨d, rest, denotes, listed, rfl⟩
      exact ⟨d, denotes, rest, listed, rfl⟩

/-- The first element that stands for no descriptor is reported. -/
theorem ofJsonList_eq_error (canonical : ∀ w ∈ items, w.IsCanonical) :
    ofJsonList items = .error e ↔ ∃ front v rest, items = front ++ v :: rest ∧
      (∀ w ∈ front, ∃ d, Denotes w d) ∧ Faulty v e := by
  induction items with
  | nil => simp [ofJsonList]
  | cons v items ih =>
    obtain ⟨first, others⟩ := List.forall_mem_cons.mp canonical
    have behind (d : Descriptor) : (ofJsonList items >>= fun ds => pure (d :: ds)) = .error e ↔
        ofJsonList items = .error e := by
      simp [bind_eq_error, pure, Except.pure]
    simp only [ofJsonList, bind_eq_error, behind, ih others, ofJson_eq_ok first,
      ofJson_eq_error first]
    constructor
    · rintro (faulty | ⟨d, denotes, front, w, rest, rfl, accepted, faulty⟩)
      · exact ⟨[], v, items, rfl, by simp, faulty⟩
      · exact ⟨v :: front, w, rest, rfl, List.forall_mem_cons.mpr ⟨⟨d, denotes⟩, accepted⟩, faulty⟩
    · rintro ⟨front, w, rest, split, accepted, faulty⟩
      cases front with
      | nil =>
        obtain ⟨rfl, -⟩ := List.cons.inj split
        exact .inl faulty
      | cons x front =>
        obtain ⟨rfl, rfl⟩ := List.cons.inj split
        obtain ⟨⟨d, denotes⟩, accepted⟩ := List.forall_mem_cons.mp accepted
        exact .inr ⟨d, denotes, front, w, rest, rfl, accepted, faulty⟩

end Descriptor

end CobolDialects
