import CobolDialects.Proofs.Catalog.Elements
import CobolDialects.Proofs.Catalog.Orderly
import CobolDialects.Proofs.Catalog.Stores

/-!
# The shape of the stored list

What a list may be read from is not of one form: an element is an object with whatever other
members, or an array of four texts. What registering writes is: each element has the four fields of
a descriptor and nothing else. So from the first registration on the stored value is of that form,
as long as nobody but the catalog writes it, and what is listed was there at first or registered.
-/

namespace CobolDialects

namespace Descriptor

/-- An object with the fields of a descriptor, each of them once and a text, and nothing else. -/
def IsRecord (v : Json) : Prop :=
  ∃ ms : Members, v = .obj ms ∧ ms.names.Perm ["name", "path", "description", "extensionId"] ∧
    ∀ m ∈ ms, ∃ text, m.2 = .str text

theorem isRecord_toJson (d : Descriptor) : IsRecord d.toJson := by
  refine ⟨_, rfl, ?_, by simp [member]⟩
  simp only [Members.names, List.map_cons, List.map_nil, member, Field.label]
  decide

end Descriptor

namespace Settings

variable {α β γ : Type}

theorem Action.bind_assoc (a : Action α) (f : α → Action β) (g : β → Action γ) :
    (a.bind f).bind g = a.bind fun x => (f x).bind g := by
  induction a with
  | done result => cases result <;> rfl
  | get key next ih => exact congrArg (Action.get key) (funext ih)
  | set key value next ih => exact congrArg (Action.set key value) (funext ih)
  | emit event next ih => exact congrArg (Action.emit event) ih

end Settings

namespace Catalog

open Settings

variable {σ τ ι : Type} {key : String} {first : Option Json} {history : List (Exchange ι)}
  {ops : ι → Operation} {landed : Exchange ι → Bool} {old : List Descriptor}

/-- An array of objects each of which has the four fields of a descriptor and nothing else. -/
def Uniform (v : Json) : Prop := ∃ items, v = .arr items ∧ ∀ item ∈ items, Descriptor.IsRecord item

theorem uniform_encode (ds : List Descriptor) : Uniform (encode ds) := by
  refine ⟨_, rfl, fun item there => ?_⟩
  obtain ⟨d, -, rfl⟩ := List.mem_map.mp there
  exact d.isRecord_toJson

/-! ## Operations read once -/

/-- The descriptor of a registration. -/
def registered? : Operation → Option Descriptor
  | .register _ d => some d
  | _ => none

theorem eq_register {o : Operation} (own : o.key = key) {d : Descriptor}
    (h : registered? o = some d) : o = .register key d := by
  cases o with
  | register used e =>
    obtain rfl : used = key := own
    obtain rfl := Option.some.inj h
    rfl
  | get | set | list | find | paths => cases h

/-- Of the operations that do not write it is only said what a listing comes to. -/
def EndsAsListing (key : String) (o : Operation) (answer : Except Error (Option Json))
    (result : Except Error Answer) : Prop :=
  o = .list key → result = (answer.bind (listOf key)).map .list

theorem readsOnce_action {o : Operation} (own : o.key = key) (noSet : ∀ value, o ≠ .set key value) :
    ReadsOnce key (registered? o) (EndsAsListing key o) o.action := by
  have reading (f : List Descriptor → Answer)
      (plain : o.action = (list key).bind fun ds => .done (.ok (f ds)))
      (answers : o = .list key → f = .list) :
        ReadsOnce key none (EndsAsListing key o) o.action := by
    rw [plain]
    exact (readsOnce_of_reading f).mono fun _ _ same here => answers here ▸ same
  cases o with
  | get used =>
    obtain rfl : used = key := own
    refine ⟨_, rfl, fun answer => .inl ?_⟩
    cases answer <;> exact ⟨_, rfl, nofun⟩
  | set used value =>
    obtain rfl : used = key := own
    exact absurd rfl (noSet value)
  | list used =>
    obtain rfl : used = key := own
    exact reading .list rfl fun _ => rfl
  | find used name =>
    obtain rfl : used = key := own
    exact reading (fun ds => .found (ds.find? (·.name = name))) (Action.bind_assoc _ _ _) nofun
  | paths used =>
    obtain rfl : used = key := own
    exact reading (fun ds => .paths (ds.map Descriptor.path)) (Action.bind_assoc _ _ _) nofun
  | register used d =>
    obtain rfl : used = key := own
    have begins : (Operation.register used d).action = (list used).bind fun ds =>
        .emit (registration ds d) (.set used (encode (upsert ds d)) fun reply =>
          (Action.done reply).bind fun () => .done (.ok Answer.done)) := Action.bind_assoc _ _ _
    rw [begins]
    refine (readsOnce_of_registering d _ fun reply => ?_).mono fun _ _ _ => nofun
    cases reply <;> exact ⟨_, rfl⟩

/-! ## Runs in which nobody else writes -/

/-- What was written last is stored. -/
theorem exists_held_of_put (first : Option Json) {client : ι} {value : Json}
    {reply : Except Error Unit}
    (there : .put client value reply ∈ history) :
    ∃ client value reply, .put client value reply ∈ history ∧ held first history = some value := by
  have wrote : (client, value) ∈ writes history := List.mem_filterMap.mpr ⟨_, there, rfl⟩
  obtain ⟨last, found⟩ := Option.isSome_iff_exists.mp
    (List.getLast?_isSome.mpr (List.ne_nil_of_mem wrote))
  obtain ⟨e, inside, same⟩ := List.mem_filterMap.mp (List.mem_of_getLast? found)
  cases e with
  | got => cases same
  | put i v r =>
    cases same
    exact ⟨i, v, r, inside, by rw [held, found]⟩

/-- The descriptor was registered by a client whose write has been carried out. -/
def Registered (key : String) (ops : ι → Operation) (landed : Exchange ι → Bool)
    (history : List (Exchange ι)) (d : Descriptor) : Prop :=
  ∃ client value reply, .put client value reply ∈ history ∧
    landed (.put client value reply) ∧ ops client = .register key d

section Reading

variable {descriptor? : ι → Option Descriptor} {earlier later : List (Exchange ι)} {client : ι}
  {found : Option Json}

/-- What is read stands for a list of descriptors that were there at first or have been
registered. -/
theorem Derived.list_of_read (h : Derived key descriptor? history)
    (alone : Alone first landed history) (stored : listOf key first = .ok old)
    (split : history = earlier ++ .got client (.ok found) :: later) :
    ∃ ds, listOf key found = .ok ds ∧ ∀ d ∈ ds, d ∈ old ∨ ∃ client value reply,
      .put client value reply ∈ earlier ∧ landed (.put client value reply) ∧
        descriptor? client = some d := by
  have read : found = held first (earlier.filter landed) := alone.read earlier client _ later split
  rw [split] at h alone
  obtain ⟨chain, lineage, list⟩ :=
    exists_lineage stored (h.of_append.faithful alone.of_append)
  refine ⟨_, read ▸ list, fun d there => ?_⟩
  rw [upsertAll_eq] at there
  rcases List.mem_append.mp there with kept | registered
  · exact .inl (mem_untouched.mp kept).1
  · obtain ⟨i, inside, rfl⟩ := List.mem_map.mp (mem_of_mem_latest registered)
    obtain ⟨⟨j, value⟩, wrote, rfl⟩ := List.mem_map.mp (lineage.inOrder.subset inside)
    obtain ⟨e, there, same⟩ := List.mem_filterMap.mp wrote
    cases e with
    | got => cases same
    | put j value reply =>
      cases same
      obtain ⟨called, carried⟩ := List.mem_filter.mp there
      obtain ⟨front, back, rfl⟩ := List.append_of_mem called
      obtain ⟨d, -, -, -, -, registers, -⟩ := h.of_append front j value reply back rfl
      exact .inr ⟨j, value, reply, called, carried, by simp only [registers, Option.getD_some]⟩

/-- Once a write has succeeded what is read has been written by a registration. -/
theorem Derived.uniform_of_read (h : Derived key descriptor? history)
    (alone : Alone first landed history)
    (split : history = earlier ++ .got client (.ok found) :: later) {j : ι} {value : Json}
    (wrote : .put j value (.ok ()) ∈ earlier) : ∃ v, found = some v ∧ Uniform v := by
  have read : found = held first (earlier.filter landed) := alone.read earlier client _ later split
  rw [split] at h alone
  have kept : .put j value (.ok ()) ∈ earlier.filter landed :=
    List.mem_filter.mpr ⟨wrote, alone.of_append.carried _ wrote rfl⟩
  obtain ⟨i, v, reply, there, holds⟩ := exists_held_of_put first kept
  obtain ⟨front, back, rfl⟩ := List.append_of_mem (List.mem_of_mem_filter there)
  obtain ⟨d, -, -, -, ds, -, -, -, rfl⟩ := h.of_append front i v reply back rfl
  exact ⟨_, read.trans holds, uniform_encode _⟩

end Reading

/-- A client that reads once and does not write has come to what its call was answered. -/
theorem Orderly.ended {descriptor? : ι → Option Descriptor} {starts : ι → Action Answer}
    {ends : ι → Except Error (Option Json) → Except Error Answer → Prop}
    {w : Clients σ ι Answer} (h : Orderly key descriptor? ends starts w) {client : ι}
    (none : descriptor? client = none) {earlier later : List (Exchange ι)}
    {answer : Except Error (Option Json)}
    (split : w.history = earlier ++ .got client answer :: later) :
    ∃ result, (w.actions client).quiet = .done result ∧ ends client answer result := by
  cases h.progress client with
  | fresh next noRead => simp [split] at noRead
  | writing registers => cases none.symm.trans registers
  | written registers => simp [none] at registers
  | @answered before between answer' result split' next ended =>
    obtain rfl := eq_of_reads h.once split split'
    obtain ⟨same, -⟩ := List.cons.inj (List.append_cancel_left (split.symm.trans split'))
    cases same
    exact ⟨result, next, ended⟩

/-- What the values are like that the clients of a key write, read and list. -/
structure Shaped (key : String) (ops : ι → Operation) (landed : Exchange ι → Bool)
    (old : List Descriptor) (w : Clients σ ι Answer) : Prop where
  /-- Registrations write uniform values, each of them the list that was read with a descriptor. -/
  written : ∀ earlier client value reply later,
    w.history = earlier ++ .put client value reply :: later →
      ∃ d before found between ds, ops client = .register key d ∧
        earlier = before ++ .got client (.ok found) :: between ∧ listOf key found = .ok ds ∧
        Uniform value ∧ decode key value = .ok (ds.filter (·.name ≠ d.name) ++ [d])
  /-- Behind a write that has succeeded what is read is uniform, and to list it fails with the
  reading call only. -/
  listed : ∀ earlier client answer later, w.history = earlier ++ .got client answer :: later →
    (∃ j value, .put j value (.ok ()) ∈ earlier) →
      (∀ found, answer = .ok found → ∃ v, found = some v ∧ Uniform v) ∧
      (ops client = .list key → ∃ result, (w.actions client).quiet = .done result ∧
        (∀ used fault, result ≠ .error (.invalidShape used fault)) ∧
        match answer with
        | .error e => result = .error e
        | .ok _ => ∃ ds, result = .ok (.list ds) ∧
            ∀ d ∈ ds, d ∈ old ∨ Registered key ops landed earlier d)

/-- Where nobody else writes, everything goes back to registrations. -/
theorem shaped_of_alone {w : Clients σ ι Answer} (own : ∀ i, (ops i).key = key)
    (stored : listOf key first = .ok old) (alone : Alone first landed w.history)
    (orderly : Orderly key (fun i => registered? (ops i)) (fun i => EndsAsListing key (ops i))
      (fun i => (ops i).action) w) : Shaped key ops landed old w where
  written := by
    intro earlier client value reply later split
    obtain ⟨d, before, found, between, ds, registers, read, list, rfl⟩ :=
      orderly.derived earlier client value reply later split
    exact ⟨d, before, found, between, ds, eq_register (own client) registers, read, list,
      uniform_encode _, decode_encode key _⟩
  listed := by
    rintro earlier client answer later split ⟨j, value, wrote⟩
    refine ⟨?_, fun lists => ?_⟩
    · rintro found rfl
      exact orderly.derived.uniform_of_read alone split wrote
    · obtain ⟨result, done, ended⟩ := orderly.ended (by rw [lists]; rfl) split
      obtain rfl := ended lists
      refine ⟨_, done, ?_⟩
      cases answer with
      | error e =>
        refine ⟨fun used fault same => ?_, rfl⟩
        exact alone.read earlier client _ later split used fault (Except.error.inj same)
      | ok found =>
        obtain ⟨ds, list, source⟩ := orderly.derived.list_of_read alone stored split
        have listed : ((Except.ok found).bind (listOf key)).map Answer.list = .ok (.list ds) := by
          simp only [Except.bind, list, Except.map]
        refine ⟨by simp [listed], ds, listed, fun d there => (source d there).imp_right ?_⟩
        rintro ⟨i, value, reply, called, carried, registers⟩
        exact ⟨i, value, reply, called, carried, eq_register (own i) registers⟩

section Runs

variable [DecidableEq ι] {stores : τ → Store σ} {s : σ}

/-- Whoever uses the catalog of a key, and does not set the key itself, stays under it. -/
theorem under_of_own {o : Operation} (own : o.key = key) (noSet : ∀ value, o ≠ .set key value) :
    o.action.Under key := by
  refine own ▸ Operation.under_action fun used value same => ?_
  obtain rfl : used = key := by rw [← own, same]; rfl
  exact absurd same (noSet value)

theorem orderly_play (turns : List (τ × ι)) (own : ∀ i, (ops i).key = key)
    (noSet : ∀ i value, ops i ≠ .set key value) :
    Orderly key (fun i => registered? (ops i)) (fun i => EndsAsListing key (ops i))
      (fun i => (ops i).action) (Clients.play stores turns ⟨s, fun i => (ops i).action, []⟩) :=
  (orderly_first s).play (fun i => readsOnce_action (own i) (noSet i)) stores turns

/-- Any number of clients use the catalog of one key, for one operation each, with calls that
interleave in any way and may fail, and nobody else writes under the key; what is stored there at
first is a list, in whatever form. What a registration writes is an array of objects with the four
fields of a descriptor and nothing else, and it stands for the list that was read, without the
entries of the new name, with the new descriptor behind them. Behind a write that has succeeded only
such arrays are read. To list then fails only if the reading call itself does, and never for the
shape of what is stored, and what is listed was in the first list or has been registered. -/
theorem list_after_register (turns : List (τ × ι)) (s : σ)
    (own : ∀ i, (ops i).key = key) (noSet : ∀ i value, ops i ≠ .set key value)
    (stored : listOf key first = .ok old)
    (alone : Alone first landed
      (Clients.play stores turns ⟨s, fun i => (ops i).action, []⟩).history) :
    let w := Clients.play stores turns ⟨s, fun i => (ops i).action, []⟩
    (∀ earlier client value reply later,
      w.history = earlier ++ .put client value reply :: later →
        ∃ d before found between ds, ops client = .register key d ∧
          earlier = before ++ .got client (.ok found) :: between ∧ listOf key found = .ok ds ∧
          Uniform value ∧ decode key value = .ok (ds.filter (·.name ≠ d.name) ++ [d])) ∧
    ∀ earlier client answer later, w.history = earlier ++ .got client answer :: later →
      (∃ j value, .put j value (.ok ()) ∈ earlier) →
        (∀ found, answer = .ok found → ∃ v, found = some v ∧ Uniform v) ∧
        (ops client = .list key → ∃ result, (w.actions client).quiet = .done result ∧
          (∀ used fault, result ≠ .error (.invalidShape used fault)) ∧
          match answer with
          | .error e => result = .error e
          | .ok _ => ∃ ds, result = .ok (.list ds) ∧
              ∀ d ∈ ds, d ∈ old ∨ Registered key ops landed earlier d) := by
  intro w
  have shaped := shaped_of_alone own stored alone (orderly_play turns own noSet)
  exact ⟨shaped.written, shaped.listed⟩

/-- A registration in a list of both forms, in which a name occurs twice, and a listing behind
it. -/
theorem list_after_register_mixed :
    let element (name : String) : Json := .arr [.str name, .str "/p", .str "", .str "ext"]
    let wide (name : String) : Json := .obj [("extensionId", .str "ext"), ("name", .str name),
      ("note", .null), ("path", .str "/q"), ("description", .str "")]
    let old : List Descriptor :=
      [⟨"idms", "/p", "", "ext"⟩, ⟨"daco", "/q", "", "ext"⟩, ⟨"idms", "/p", "", "ext"⟩]
    let table : Members := [("registry", .arr [element "idms", wide "daco", element "idms"])]
    let ops (registers : Bool) : Operation :=
      if registers then .register "registry" ⟨"idms", "/new", "", "ext"⟩ else .list "registry"
    let w := Clients.play (fun _ : Unit => Memory.store) [((), true), ((), true), ((), false)]
      ⟨table, fun i => (ops i).action, []⟩
    ∃ ds, (w.actions false).quiet = .done (.ok (.list ds)) ∧
      ∀ d ∈ ds, d ∈ old ∨ Registered "registry" ops Exchange.succeeded w.history d := by
  intro element wide old table ops w
  have own : ∀ i, (ops i).key = "registry" := by decide
  have noSet : ∀ i value, ops i ≠ .set "registry" value := by
    intro i value
    cases i <;> simp [ops]
  have alone : Alone _ Exchange.succeeded w.history :=
    ((steady_memory "registry").alone_play _ (fun i => under_of_own (own i) (noSet i)) rfl
      fun e _ => e.not_faulty_false).1
  have stored : listOf "registry" (table.find? "registry") = .ok old := by rfl
  obtain ⟨-, reads⟩ := list_after_register _ _ own noSet stored alone
  let written : Json := encode (upsert old ⟨"idms", "/new", "", "ext"⟩)
  have calls : w.history = [.got true (.ok (table.find? "registry")), .put true written (.ok ())] ++
      .got false (.ok (some written)) :: [] := by with_unfolding_all rfl
  obtain ⟨-, lists⟩ := reads _ false _ _ calls ⟨true, _, List.mem_cons_of_mem _ List.mem_cons_self⟩
  obtain ⟨result, done, -, ds, rfl, source⟩ := lists rfl
  refine ⟨ds, done, fun d there => (source d there).imp_right ?_⟩
  rintro ⟨i, value, reply, called, rest⟩
  exact ⟨i, value, reply, calls ▸ List.mem_append_left _ called, rest⟩

/-! ### The stores at hand -/

/-- In a steady store the clients of a key are alone if they are the only ones. -/
theorem Steady.shaped {holds : σ → Option Json → Prop}
    (steady : Steady stores key holds fun _ => False) (turns : List (τ × ι)) (start : holds s first)
    (own : ∀ i, (ops i).key = key) (noSet : ∀ i value, ops i ≠ .set key value)
    (stored : listOf key first = .ok old) :
    Shaped key ops Exchange.succeeded old
      (Clients.play stores turns ⟨s, fun i => (ops i).action, []⟩) := by
  have under (i : ι) := under_of_own (own i) (noSet i)
  have alone := (steady.alone_play turns under start fun e _ => e.not_faulty_false).1
  exact shaped_of_alone own stored alone (orderly_play turns own noSet)

/-- So it is in a settings file, whichever calls the system refuses. -/
theorem shaped_in_file {file : Path} {fs : FileSystem} {table : Members}
    (kept : File.Kept file fs fs table) (turns : List (File.Refusals × ι))
    (own : ∀ i, (ops i).key = key) (noSet : ∀ i value, ops i ≠ .set key value)
    (stored : listOf key (table.find? key) = .ok old) :
    Shaped key ops Exchange.succeeded old
      (Clients.play (fun refusals => File.store refusals file) turns
        ⟨fs, fun i => (ops i).action, []⟩) :=
  (steady_file file fs key).shaped turns ⟨table, kept, rfl⟩ own noSet stored

/-- So it is in a database whose statements are carried out, or whose writes are all refused. -/
theorem shaped_in_database {verdict : Except Database.Error Unit}
    {working : Database → Engine → Prop} {slot : Nat} {db : Database} {e : Engine}
    (unfailing : Engine.Unfailing slot verdict working) (works : working db e)
    (value : DatabaseFile.valueIn (DatabaseFile.cell? (·.value) key db) = .ok first)
    (turns : List (Int × ι)) (own : ∀ i, (ops i).key = key)
    (noSet : ∀ i value, ops i ≠ .set key value) (stored : listOf key first = .ok old) :
    Shaped key ops Exchange.succeeded old
      (Clients.play (fun time => DatabaseFile.store time slot) turns
        ⟨e, fun i => (ops i).action, []⟩) :=
  (steady_database unfailing key).shaped turns ⟨db, works, value⟩ own noSet stored

end Runs

end Catalog

end CobolDialects
