import CobolDialects.Proofs.Catalog.Registration

/-!
# What registering does to looking up

A look-up takes the first entry of a name, registering drops all of them and adds one at the end.
What follows from that for lists holds of the operations as well, run one after the other with no
other writer on stores that keep the value of their key.
-/

namespace CobolDialects.Catalog

open Settings

variable {σ : Type} {stores : Nat → Store σ} {holds : σ → Option Json → Prop} {fault : Error → Prop}
  {s : σ} {key : String} {value? : Option Json} {old : List Descriptor}

/-- The value that the stores have under the key. -/
def Stores (stores : Nat → Store σ) (fault : Error → Prop) (key : String) (v : Json) (s : σ) :
    Prop :=
  ∀ n, ((stores n).get key s).Gives fault (.ok (some v)) fun _ => True

/-- The list that the stores have under the key. -/
def Shows (stores : Nat → Store σ) (fault : Error → Prop) (key : String) (ds : List Descriptor)
    (s : σ) : Prop :=
  ∀ n, ((list key).run (stores n) s).Gives fault (.ok ds) fun _ => True

/-- What a look-up of a name finds in the stores. -/
def Finds (stores : Nat → Store σ) (fault : Error → Prop) (key name : String)
    (found : Option Descriptor) (s : σ) : Prop :=
  ∀ n, ((find key name).run (stores n) s).Gives fault (.ok found) fun _ => True

theorem stores_of_holds (keeps : ∀ n, KeepsUnder key (stores n) holds fault) {v : Json}
    (h : holds s (some v)) : Stores stores fault key v s :=
  fun n => ((keeps n).get h).mono fun _ _ => trivial

theorem shows_of_holds (keeps : ∀ n, KeepsUnder key (stores n) holds fault) (h : holds s value?)
    (stored : listOf key value? = .ok old) : Shows stores fault key old s := by
  intro n
  rw [← stored]
  exact (list_gives (keeps n) h).mono fun _ _ => trivial

theorem finds_of_holds (keeps : ∀ n, KeepsUnder key (stores n) holds fault) (h : holds s value?)
    (stored : listOf key value? = .ok old) (name : String) :
    Finds stores fault key name (old.find? (·.name = name)) s := by
  intro n
  have found := find_gives (keeps n) h name
  rw [stored] at found
  exact found.mono fun _ _ => trivial

/-- On stores that keep the value of the key, from any list on: A descriptor that has been
registered is found under its name, and every other name finds what it found before, the first entry
of that name. The paths are those of the list, on any store. Registering a descriptor twice stores
what registering it once stores, and of two descriptors of one name only the second makes a
difference. Two descriptors of different names are found whichever of them was registered first; the
lists differ in the order of their last two entries. -/
theorem laws_of_registering (keeps : ∀ n, KeepsUnder key (stores n) holds fault)
    (start : holds s value?) (stored : listOf key value? = .ok old) (d e : Descriptor) :
    (∀ name, Finds stores fault key name (old.find? (·.name = name)) s) ∧
    Leaves stores fault key [d] s (fun after => ∀ name, Finds stores fault key name
      (if name = d.name then some d else old.find? (·.name = name)) after) ∧
    (∀ (store : Store σ) (s : σ),
      (paths key).run store s = ((list key).run store s).map (·.map (·.path))) ∧
    (∃ value, Leaves stores fault key [d] s (Stores stores fault key value) ∧
      Leaves stores fault key [d, d] s (Stores stores fault key value)) ∧
    (e.name = d.name → ∃ value, Leaves stores fault key [e] s (Stores stores fault key value) ∧
      Leaves stores fault key [d, e] s (Stores stores fault key value)) ∧
    (e.name ≠ d.name →
      (∃ rest, Leaves stores fault key [d, e] s (Shows stores fault key (rest ++ [d, e])) ∧
        Leaves stores fault key [e, d] s (Shows stores fault key (rest ++ [e, d]))) ∧
      ∀ name, ∃ found, Leaves stores fault key [d, e] s (Finds stores fault key name found) ∧
        Leaves stores fault key [e, d] s (Finds stores fault key name found)) := by
  have left (d : Descriptor) (ds : List Descriptor) := leaves_upsertAll keeps start stored d ds
  have kept (ds : List Descriptor) : listOf key (some (encode ds)) = .ok ds := decode_encode key ds
  refine ⟨finds_of_holds keeps start stored, ?found, fun store s => Action.run_map store _ _ s,
    ?again, ?same, fun differs => ⟨?lists, fun name => ?either⟩⟩
  case found =>
    apply (left d []).mono
    intro after h name
    rw [← find?_upsert old d name]
    exact finds_of_holds keeps h (kept _) name
  case again =>
    refine ⟨_, (left d []).mono fun _ => stores_of_holds keeps, (left d [d]).mono ?_⟩
    have same : upsertAll old [d, d] = upsertAll old [d] := upsert_upsert old d
    rw [same]
    exact fun _ => stores_of_holds keeps
  case same =>
    intro same
    refine ⟨_, (left e []).mono fun _ => stores_of_holds keeps, (left d [e]).mono ?_⟩
    have last : upsertAll old [d, e] = upsertAll old [e] := upsert_upsert_of_name old same
    rw [last]
    exact fun _ => stores_of_holds keeps
  case lists =>
    refine ⟨old.filter fun x => decide (x.name ≠ d.name) && decide (x.name ≠ e.name),
      (left d [e]).mono fun after h => ?_, (left e [d]).mono fun after h => ?_⟩
    · rw [← upsert_upsert_of_ne old differs]
      exact shows_of_holds keeps h (kept _)
    · have other := upsert_upsert_of_ne old differs.symm
      simp only [Bool.and_comm (decide (_ ≠ e.name))] at other
      rw [← other]
      exact shows_of_holds keeps h (kept _)
  case either =>
    refine ⟨_, (left d [e]).mono fun after h => finds_of_holds keeps h (kept _) name,
      (left e [d]).mono fun after h => ?_⟩
    have found : (upsertAll old [d, e]).find? (·.name = name) =
        (upsertAll old [e, d]).find? (·.name = name) := by
      have both (d e : Descriptor) : upsertAll old [d, e] = upsert (upsert old d) e := rfl
      simp only [both, find?_upsert]
      grind
    rw [found]
    exact finds_of_holds keeps h (kept _) name

/-- Other names are those that differ in any letter, be it only in its case. -/
theorem laws_of_registering_a_repeated_name :
    let old : List Descriptor :=
      [⟨"idms", "/a", "", ""⟩, ⟨"IDMS", "/b", "", ""⟩, ⟨"idms", "/c", "", ""⟩]
    let d : Descriptor := ⟨"idms", "/d", "", ""⟩
    let stores (_ : Nat) : Store Members := Memory.store
    let Finds := Finds stores (fun _ => False) "registry"
    let s : Members := [("registry", encode old)]
    Finds "idms" (some ⟨"idms", "/a", "", ""⟩) s ∧
      Leaves stores (fun _ => False) "registry" [d] s fun after =>
        Finds "idms" (some d) after ∧ Finds "IDMS" (some ⟨"IDMS", "/b", "", ""⟩) after ∧
          Finds "idms " none after := by
  intro old d stores Finds s
  have stored : listOf "registry" (some (encode old)) = .ok old := decode_encode "registry" old
  have keeps (n : Nat) := Memory.keeps.under "registry"
  obtain ⟨before, found, -⟩ := laws_of_registering keeps ⟨s, rfl, rfl⟩ stored d d
  exact ⟨before "idms", found.mono fun after find => ⟨find "idms", find "IDMS", find "idms "⟩⟩

end CobolDialects.Catalog
