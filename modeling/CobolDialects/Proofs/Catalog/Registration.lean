import CobolDialects.Proofs.Catalog.Keeping
import CobolDialects.Proofs.Catalog.Upsert

/-!
# Runs of registrations

Registrations that follow one another on stores that keep the value of their key leave behind the
list that has all of them registered in turn. What the list looks like is told by its closed form.
-/

namespace CobolDialects.Catalog

open Settings

variable {σ : Type} {stores : Nat → Store σ} {holds : σ → Option Json → Prop} {fault : Error → Prop}
  {s : σ} {key : String} {value? : Option Json} {old : List Descriptor}

/-- Registrations one after the other all succeed, and leave a state of which something holds,
unless one of them meets a fault. -/
def Leaves (stores : Nat → Store σ) (fault : Error → Prop) (key : String) (ds : List Descriptor)
    (s : σ) (holds : σ → Prop) : Prop :=
  let run := Action.inTurn stores (ds.map (register key)) s
  (∀ result ∈ run.1, result = .ok ()) ∧ holds run.2 ∨ ∃ result ∈ run.1, Action.Faulty fault result

namespace Leaves

variable {ds : List Descriptor} {left left' : σ → Prop}

theorem mono (h : Leaves stores fault key ds s left) (le : ∀ after, left after → left' after) :
    Leaves stores fault key ds s left' :=
  h.imp_left fun ⟨succeed, after⟩ => ⟨succeed, le _ after⟩

/-- Where all registrations have succeeded none has met a fault. -/
theorem of_ok (h : Leaves stores fault key ds s left)
    (succeed : ∀ r ∈ (Action.inTurn stores (ds.map (register key)) s).1, r = .ok ()) :
    left (Action.inTurn stores (ds.map (register key)) s).2 := by
  rcases h with ⟨-, after⟩ | ⟨r, there, faulty⟩
  · exact after
  · rw [succeed r there] at faulty
    exact faulty.elim

/-- Without faults all registrations succeed. -/
theorem certain (h : Leaves stores (fun _ => False) key ds s left) :
    (∀ r ∈ (Action.inTurn stores (ds.map (register key)) s).1, r = .ok ()) ∧
      left (Action.inTurn stores (ds.map (register key)) s).2 := by
  rcases h with h | ⟨r, -, faulty⟩
  · exact h
  · cases r <;> exact faulty.elim

theorem cons {d : Descriptor} {mid : σ → Prop}
    (first : ((register key d).run (stores 0) s).Gives fault (.ok ()) mid)
    (rest : ∀ after, mid after → Leaves (fun n => stores (n + 1)) fault key ds after left) :
    Leaves stores fault key (d :: ds) s left := by
  rw [Leaves, List.map_cons, Action.inTurn_cons]
  rcases first with ⟨answer, kept⟩ | ⟨e, faulty, failed⟩
  · rcases rest _ kept with ⟨succeed, after⟩ | ⟨r, there, faulty⟩
    · exact .inl ⟨List.forall_mem_cons.mpr ⟨answer, succeed⟩, after⟩
    · exact .inr ⟨r, List.mem_cons_of_mem _ there, faulty⟩
  · exact .inr ⟨_, List.mem_cons_self, by rwa [failed]⟩

end Leaves

/-- Registrations leave the value that stands for the list with all of them registered. -/
theorem leaves_upsertAll (keeps : ∀ n, KeepsUnder key (stores n) holds fault)
    (start : holds s value?)
    (stored : listOf key value? = .ok old) (d : Descriptor) (ds : List Descriptor) :
    Leaves stores fault key (d :: ds) s (holds · (some (encode (upsertAll old (d :: ds))))) := by
  induction ds generalizing stores s value? old d with
  | nil =>
    refine .cons (register_gives (keeps 0) start stored d) fun after kept => ?_
    exact .inl ⟨by simp [Action.inTurn], kept⟩
  | cons e ds ih =>
    refine .cons (register_gives (keeps 0) start stored d) fun after kept => ?_
    exact ih (fun n => keeps (n + 1)) kept (decode_encode key _) e

/-- Registrations, be it none, leave a value that stands for the list with all of them
registered. -/
theorem leaves_listed (keeps : ∀ n, KeepsUnder key (stores n) holds fault) (start : holds s value?)
    (stored : listOf key value? = .ok old) (ds : List Descriptor) :
    Leaves stores fault key ds s fun after =>
      ∃ left, holds after left ∧ listOf key left = .ok (upsertAll old ds) := by
  cases ds with
  | nil => exact .inl ⟨by simp [Action.inTurn], value?, start, stored⟩
  | cons d ds =>
    exact (leaves_upsertAll keeps start stored d ds).mono fun after kept =>
      ⟨_, kept, decode_encode key _⟩

/-- Where there are no faults all registrations succeed, and the list has all of them registered. -/
theorem list_of_faultless (keeps : ∀ n, KeepsUnder key (stores n) holds fun _ => False)
    (start : holds s value?) (stored : listOf key value? = .ok old) (ds : List Descriptor) :
    let run := Action.inTurn stores (ds.map (register key)) s
    (∀ r ∈ run.1, r = .ok ()) ∧
      ((list key).run (stores ds.length) run.2).result = .ok (upsertAll old ds) := by
  obtain ⟨succeed, left, kept, behind⟩ := (leaves_listed keeps start stored ds).certain
  exact ⟨succeed, (list_gives (keeps ds.length) kept).certain.1.trans behind⟩

/-- Once registrations have succeeded one after the other, the list is what is left of the old one,
and behind it, in the order in which they were registered, the last descriptor of every name. -/
theorem list_after_registrations (keeps : ∀ n, KeepsUnder key (stores n) holds fault)
    (start : holds s value?) (stored : listOf key value? = .ok old) (ds : List Descriptor)
    (succeed : ∀ r ∈ (Action.inTurn stores (ds.map (register key)) s).1, r = .ok ()) :
    let final := untouched ds old ++ latest ds
    ((list key).run (stores ds.length)
        (Action.inTurn stores (ds.map (register key)) s).2).Gives fault (.ok final)
          (fun _ => True) ∧
      (∀ d ∈ ds, final.countP (·.name = d.name) = 1) ∧
        ((old.map (·.name)).Nodup → (final.map (·.name)).Nodup) := by
  obtain ⟨left, kept, behind⟩ := (leaves_listed keeps start stored ds).of_ok succeed
  have listing := list_gives (keeps ds.length) kept
  rw [behind] at listing
  intro final
  have closed : upsertAll old ds = final := upsertAll_eq old ds
  rw [← closed]
  exact ⟨listing.mono fun _ _ => trivial, fun d there => countP_upsertAll there, nodup_upsertAll⟩

/-- Of a list with a repeated name the entries of that name go when it is registered, and of two
registrations of one name the second one counts. -/
theorem list_after_repeated_names :
    let a : Descriptor := ⟨"idms", "/a", "", "ext.a"⟩
    let b : Descriptor := ⟨"daco", "/b", "", "ext.b"⟩
    let old : List Descriptor := [a, b, { a with path := "/c" }]
    let ds : List Descriptor := [{ a with path := "/d" }, ⟨"", "", "", ""⟩, { a with owner := "" }]
    let table : Members := [("registry", encode old)]
    ((list "registry").run Memory.store
        (Action.inTurn (fun _ => Memory.store) (ds.map (register "registry")) table).2).result =
      .ok [b, ⟨"", "", "", ""⟩, { a with owner := "" }] := by
  intro a b old ds table
  have keeps (_ : Nat) := Memory.keeps.under "registry"
  have stored : listOf "registry" (some (encode old)) = .ok old := decode_encode "registry" old
  have start : ∃ t, table = t ∧ t.find? "registry" = some (encode old) := ⟨table, rfl, rfl⟩
  have succeed := (leaves_listed keeps start stored ds).certain.1
  have final := (list_after_registrations keeps start stored ds succeed).1.certain.1
  exact final.trans (congrArg Except.ok (by decide))

end CobolDialects.Catalog
