import CobolDialects.Proofs.Catalog.Shape
import CobolDialects.Proofs.CommandLine.Replies
import CobolDialects.Proofs.Json.RoundTrip

/-!
# Reading documents back

A descriptor is written as a record in the order of its fields, tightly or over several lines, and
stored as a value with its members in order. All of these are read as the descriptor. What is
printed of a registry as a document is read as the very value that stands for the list, so it tells
registries apart.
-/

namespace CobolDialects

open Settings Catalog

namespace Json

/-- A text over several lines, without a line break behind it. -/
theorem readDocument_lines {v w : Json} (free : v.floatFree) :
    readDocument v.toLines.toList = .ok w ↔ v.depth ≤ maxDepth ∧ w = v := by
  rw [readDocument_eq_ok, toLines, String.toList_ofList, ← spaced_lines]
  simpa using document_spaced free 0 (List.forall_mem_nil _)

end Json

namespace Descriptor

variable {ms : Members}

theorem floatFree_record (d : Descriptor) : d.record.floatFree := rfl

theorem depth_record (d : Descriptor) : d.record.depth = 1 := rfl

theorem read_record_toText (d : Descriptor) : Json.read d.record.toText = .ok d.toJson := by
  have shallow : d.record.depth ≤ Json.maxDepth := by rw [depth_record]; decide
  rw [← canonical_record]
  exact Json.read_of_readDocument ((Json.readDocument_toText d.floatFree_record).mpr ⟨shallow, rfl⟩)

theorem read_record_toLines (d : Descriptor) : Json.read d.record.toLines = .ok d.toJson := by
  have shallow : d.record.depth ≤ Json.maxDepth := by rw [depth_record]; decide
  rw [← canonical_record]
  exact Json.read_of_readDocument ((Json.readDocument_lines d.floatFree_record).mpr ⟨shallow, rfl⟩)

/-- The names of the fields in order. -/
theorem names_eq_of_perm (order : ms.Increasing)
    (names : ms.names.Perm ["name", "path", "description", "extensionId"]) :
    ms.names = ["description", "extensionId", "name", "path"] := by
  have sorted : ["description", "extensionId", "name", "path"].Pairwise
      fun a b => textBefore a b = true := by decide
  have perm : ms.names.Perm ["description", "extensionId", "name", "path"] :=
    names.trans (by decide)
  refine perm.eq_of_pairwise (fun a b _ _ first second => ?_) order sorted
  rw [textBefore_asymm first] at second
  cases second

/-- A value that has the fields of a descriptor and nothing else is what the descriptor is stored
as. -/
theorem exists_toJson_eq {v : Json} (canonical : v.IsCanonical) (record : IsRecord v) :
    ∃ d : Descriptor, d.toJson = v := by
  obtain ⟨ms, rfl, names, texts⟩ := record
  have same := names_eq_of_perm (Json.increasing_of_isCanonical canonical) names
  match ms, same with
  | [(_, description), (_, owner), (_, name), (_, path)], same =>
    obtain ⟨rfl, rfl, rfl, rfl, -⟩ := by simpa using same
    simp only [List.forall_mem_cons] at texts
    obtain ⟨⟨description, rfl⟩, ⟨owner, rfl⟩, ⟨name, rfl⟩, ⟨path, rfl⟩, -⟩ := texts
    exact ⟨⟨name, path, description, owner⟩, rfl⟩

end Descriptor

namespace CommandLine

variable {σ : Type} {store : Store σ} {s : σ} {key name : String} {ds : List Descriptor}

/-- The list is printed as a document that is read back with its records in the order of their
fields. -/
theorem readDocument_jsonList (ds : List Descriptor) :
    Json.readDocument (jsonList ds).toList = .ok (.arr (ds.map Descriptor.record)) := by
  have free : (Json.arr (ds.map Descriptor.record)).floatFree := by
    refine Json.floatFreeItems_iff.mpr fun v there => ?_
    obtain ⟨d, -, rfl⟩ := List.mem_map.mp there
    exact d.floatFree_record
  have shallow : (Json.arr (ds.map Descriptor.record)).depth ≤ Json.maxDepth := by
    have items : Json.depthItems (ds.map Descriptor.record) ≤ 1 := by
      refine Json.depthItems_le.mpr fun v there => ?_
      obtain ⟨d, -, rfl⟩ := List.mem_map.mp there
      exact d.depth_record.le
    rw [Json.depth, Json.maxDepth]
    omega
  exact (Json.readDocument_toLines free).mpr ⟨shallow, rfl⟩

/-- As a value, the document of a list is what the list is stored as. -/
theorem read_jsonList (ds : List Descriptor) : Json.read (jsonList ds) = .ok (encode ds) := by
  rw [Json.read_of_readDocument (readDocument_jsonList ds), Json.canonical,
    Json.canonicalItems_eq_map, List.map_map, encode]
  exact congrArg (Except.ok ∘ Json.arr) (List.map_congr_left fun d _ => d.canonical_record)

theorem read_jsonRecord (d : Descriptor) : Json.read (jsonRecord d) = .ok d.toJson := by
  have shallow : d.record.depth ≤ Json.maxDepth := by rw [Descriptor.depth_record]; decide
  rw [← Descriptor.canonical_record]
  exact Json.read_of_readDocument
    ((Json.readDocument_toLines d.floatFree_record).mpr ⟨shallow, rfl⟩)

theorem jsonList_injective : Function.Injective jsonList := by
  intro ds ds' same
  have values := congrArg Json.read same
  rw [read_jsonList, read_jsonList] at values
  have lists := congrArg (decode "") (Except.ok.inj values)
  rw [decode_encode, decode_encode] at lists
  exact Except.ok.inj lists

theorem jsonRecord_injective : Function.Injective jsonRecord := by
  intro d d' same
  have values := congrArg Json.read same
  rw [read_jsonRecord, read_jsonRecord] at values
  have records := congrArg Descriptor.ofJson (Except.ok.inj values)
  rw [Descriptor.ofJson_toJson, Descriptor.ofJson_toJson] at records
  exact Except.ok.inj records

/-- The document of the registry is printed just if it is a list. -/
theorem conclusion_list {text : String} : (Command.list true).conclusion store key s = .ok text ↔
    ∃ ds, ((list key).run store s).result = .ok ds ∧ text = jsonList ds := by
  rw [(makes_list store key s).result]
  cases read : (store.get key s).result.bind (listOf key) with
  | error e =>
    rw [Command.conclusion_of_error read]
    constructor
    · intro printed
      cases printed
    · rintro ⟨d, same, -⟩
      cases same
  | ok ds =>
    have printed : (Command.list true).conclusion store key s = .ok (jsonList ds) :=
      Command.conclusion_of_reads trivial read
    simp [printed, eq_comm]

/-- The document of a dialect is printed just if it is found. -/
theorem conclusion_show {text : String} : (Command.show name).conclusion store key s = .ok text ↔
    ∃ d, ((find key name).run store s).result = .ok (some d) ∧ text = jsonRecord d := by
  have found := ((makes_list store key s).map (·.find? (·.name = name))).result
  rw [find, found]
  cases read : (store.get key s).result.bind (listOf key) with
  | error e =>
    rw [Command.conclusion_of_error read]
    constructor
    · intro printed
      cases printed
    · rintro ⟨d, same, -⟩
      cases same
  | ok ds =>
    have printed : (Command.show name).conclusion store key s = _ :=
      Command.conclusion_of_reads trivial read
    rw [printed, Command.answer, Except.map]
    cases ds.find? (·.name = name) with
    | none => simp [Command.conclude]
    | some d =>
      rw [Command.conclude, Except.ok.injEq]
      refine ⟨fun same => ⟨d, rfl, same.symm⟩, ?_⟩
      rintro ⟨other, same, rfl⟩
      obtain rfl := Option.some.inj (Except.ok.inj same)
      rfl

/-- Whatever a descriptor is written as, the descriptor is read from it; and a value with the fields
of a descriptor and nothing else is what the descriptor that is read from it is stored as. From what
is printed of a registry as a document exactly its list is read, and from what is shown of a dialect
exactly that dialect, so that registries and dialects that differ are never printed alike. -/
theorem documents_read_back :
    (∀ d : Descriptor, Descriptor.ofJson d.toJson = .ok d ∧
      ∀ text ∈ [d.record.toText, d.record.toLines],
        ∃ v, Json.read text = .ok v ∧ Descriptor.ofJson v = .ok d) ∧
    (∀ v : Json, v.IsCanonical → Descriptor.IsRecord v →
      ∃ d, Descriptor.ofJson v = .ok d ∧ d.toJson = v) ∧
    ∀ (σ : Type) (store : Store σ) (s : σ) (key : String),
      (∀ ds, ((list key).run store s).result = .ok ds →
        ∃ text v, (Command.list true).conclusion store key s = .ok text ∧
          Json.read text = .ok v ∧ decode key v = .ok ds) ∧
      (∀ name d, ((find key name).run store s).result = .ok (some d) →
        ∃ text v, (Command.show name).conclusion store key s = .ok text ∧
          Json.read text = .ok v ∧ Descriptor.ofJson v = .ok d) ∧
      ∀ (τ : Type) (other : Store τ) (t : τ) (used : String),
        (∀ text, (Command.list true).conclusion store key s = .ok text →
          (Command.list true).conclusion other used t = .ok text →
            ((list key).run store s).result = ((list used).run other t).result) ∧
        ∀ name name' text, (Command.show name).conclusion store key s = .ok text →
          (Command.show name').conclusion other used t = .ok text →
            ((find key name).run store s).result = ((find used name').run other t).result := by
  refine ⟨fun d => ⟨d.ofJson_toJson, ?_⟩, fun v canonical record => ?_, fun σ store s key =>
    ⟨fun ds listed => ?_, fun name d found => ?_, fun τ other t used => ⟨?_, ?_⟩⟩⟩
  · simp only [List.forall_mem_cons, List.not_mem_nil, false_imp_iff, implies_true, and_true]
    exact ⟨⟨_, d.read_record_toText, d.ofJson_toJson⟩, ⟨_, d.read_record_toLines, d.ofJson_toJson⟩⟩
  · obtain ⟨d, rfl⟩ := Descriptor.exists_toJson_eq canonical record
    exact ⟨d, d.ofJson_toJson, rfl⟩
  · exact ⟨_, _, conclusion_list.mpr ⟨ds, listed, rfl⟩, read_jsonList ds, decode_encode key ds⟩
  · exact ⟨_, _, conclusion_show.mpr ⟨d, found, rfl⟩, read_jsonRecord d, d.ofJson_toJson⟩
  · intro text printed same
    obtain ⟨ds, listed, rfl⟩ := conclusion_list.mp printed
    obtain ⟨ds', listed', alike⟩ := conclusion_list.mp same
    rw [listed, listed', jsonList_injective alike]
  · intro name name' text shown same
    obtain ⟨d, found, rfl⟩ := conclusion_show.mp shown
    obtain ⟨d', found', alike⟩ := conclusion_show.mp same
    rw [found, found', jsonRecord_injective alike]

/-- Quotes, control characters and characters beyond the basic plane are read back from what is
printed of a registry in which they occur. -/
theorem documents_of_awkward_names :
    let ds : List Descriptor := [⟨"\"\\", "\x00\n\x7f", "𝄞", ""⟩, ⟨"", "/", "\u2028", "\t"⟩]
    let table : Members := [("k", encode ds)]
    ∃ text v, (Command.list true).conclusion Memory.store "k" table = .ok text ∧
      Json.read text = .ok v ∧ decode "k" v = .ok ds := by
  intro ds table
  have listed : ((list "k").run Memory.store table).result = .ok ds :=
    (makes_list Memory.store "k" table).result.trans rfl
  exact (documents_read_back.2.2 _ Memory.store table "k").1 ds listed

end CommandLine

end CobolDialects
