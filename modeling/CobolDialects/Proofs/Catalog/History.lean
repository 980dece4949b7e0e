import CobolDialects.Proofs.Catalog.Codec
import CobolDialects.Proofs.Catalog.Upsert
import CobolDialects.Proofs.Settings.Clients
import Mathlib.Data.List.Induction

/-!
# Histories of racing registrations

In a history of registrations every value that was written is the list that its client had read,
with the client's descriptor registered. What is stored at last therefore goes back along a chain:
from the client that wrote last to the one whose list it had read, and so on to the list from which
all began. The registrations on that chain survive, and no others do.
-/

namespace CobolDialects.Catalog

open Settings

variable {ι : Type} {history earlier later : List (Exchange ι)} {first : Option Json}

/-- The clients that read, in order. -/
def readers (history : List (Exchange ι)) : List ι := history.filterMap Exchange.reader?

/-- The clients that wrote, and what they wrote, in order. -/
def writes (history : List (Exchange ι)) : List (ι × Json) := history.filterMap Exchange.write?

/-- The clients that wrote, in order. -/
def writers (history : List (Exchange ι)) : List ι := (writes history).map (·.1)

/-- The value that is stored behind a history, given the first one. -/
def held (first : Option Json) (history : List (Exchange ι)) : Option Json :=
  match (writes history).getLast? with
  | some (_, value) => some value
  | none => first

/-- The client read what another one had written last, or the first value. -/
def ReadsFrom (first : Option Json) (history : List (Exchange ι)) (client : ι)
    (source : Option ι) : Prop :=
  ∃ earlier later, history = earlier ++ .got client (.ok (held first earlier)) :: later ∧
    (writers earlier).getLast? = source

/-- A chain of clients in the order in which they wrote: each one read what the one before it had
written, the first one the first value, and the last one wrote last. -/
structure Lineage (first : Option Json) (history : List (Exchange ι)) (chain : List ι) : Prop where
  inOrder : chain.Sublist (writers history)
  last : chain.getLast? = (writers history).getLast?
  readsFrom : ∀ before client after, chain = before ++ client :: after →
    ReadsFrom first history client before.getLast?

@[simp] theorem readers_append (a b : List (Exchange ι)) :
    readers (a ++ b) = readers a ++ readers b := List.filterMap_append

@[simp] theorem writes_append (a b : List (Exchange ι)) : writes (a ++ b) = writes a ++ writes b :=
  List.filterMap_append

@[simp] theorem writers_append (a b : List (Exchange ι)) :
    writers (a ++ b) = writers a ++ writers b := by
  simp [writers]

@[simp] theorem readers_got (client : ι) (answer : Except Error (Option Json)) :
    readers (.got client answer :: later) = client :: readers later := rfl

@[simp] theorem readers_put (client : ι) (value : Json) (answer : Except Error Unit) :
    readers (.put client value answer :: later) = readers later := rfl

@[simp] theorem writes_got (client : ι) (answer : Except Error (Option Json)) :
    writes (.got client answer :: later) = writes later := rfl

@[simp] theorem writes_put (client : ι) (value : Json) (answer : Except Error Unit) :
    writes (.put client value answer :: later) = (client, value) :: writes later := rfl

@[simp] theorem writers_got (client : ι) (answer : Except Error (Option Json)) :
    writers (.got client answer :: later) = writers later := rfl

@[simp] theorem writers_put (client : ι) (value : Json) (answer : Except Error Unit) :
    writers (.put client value answer :: later) = client :: writers later := rfl

@[simp] theorem readers_nil : readers ([] : List (Exchange ι)) = [] := rfl

@[simp] theorem writes_nil : writes ([] : List (Exchange ι)) = [] := rfl

@[simp] theorem writers_nil : writers ([] : List (Exchange ι)) = [] := rfl

@[simp] theorem held_nil (first : Option Json) : held first ([] : List (Exchange ι)) = first := rfl

/-- Reading changes nothing. -/
@[simp] theorem held_append_got (client : ι) (answer : Except Error (Option Json)) :
    held first (history ++ [.got client answer]) = held first history := by
  simp [held]

/-- What was written last is stored. -/
@[simp] theorem held_append_put (client : ι) (value : Json) (answer : Except Error Unit) :
    held first (history ++ [.put client value answer]) = some value := by
  simp [held]

theorem ReadsFrom.append {client : ι} {source : Option ι}
    (h : ReadsFrom first history client source)
    (more : List (Exchange ι)) : ReadsFrom first (history ++ more) client source := by
  obtain ⟨earlier, later, rfl, last⟩ := h
  exact ⟨earlier, later ++ more, by simp, last⟩

/-- A call of a history that is one call longer is that call, or one of the history. -/
theorem split_concat {e e' : Exchange ι} (h : history ++ [e'] = earlier ++ e :: later) :
    earlier = history ∧ e = e' ∨ ∃ front, history = earlier ++ e :: front := by
  rcases List.eq_nil_or_concat later with rfl | ⟨front, last, rfl⟩
  · obtain ⟨rfl, same⟩ := List.append_inj' h rfl
    exact .inl ⟨rfl, (List.cons.inj same).1.symm⟩
  · rw [List.concat_eq_append, ← List.cons_append, ← List.append_assoc] at h
    exact .inr ⟨front, List.append_inj_left' h rfl⟩

theorem exists_of_mem_readers {client : ι} (h : client ∈ readers history) :
    ∃ earlier answer later, history = earlier ++ .got client answer :: later := by
  obtain ⟨e, there, reads⟩ := List.mem_filterMap.mp h
  obtain ⟨earlier, later, rfl⟩ := List.append_of_mem there
  cases e with
  | put => simp [Exchange.reader?] at reads
  | got other answer =>
    obtain rfl := Option.some.inj reads
    exact ⟨earlier, answer, later, rfl⟩

/-- A client that reads once reads at one place. -/
theorem eq_of_reads {client : ι} (once : (readers history).Nodup)
    {a b : Except Error (Option Json)} {earlier' later' : List (Exchange ι)}
    (h : history = earlier ++ .got client a :: later)
    (h' : history = earlier' ++ .got client b :: later') : earlier = earlier' := by
  rw [h] at once
  rcases List.append_eq_append_iff.mp (h.symm.trans h') with
    ⟨between, rfl, same⟩ | ⟨between, rfl, same⟩
  · cases between with
    | nil => simp
    | cons e between =>
      obtain ⟨rfl, rfl⟩ := List.cons.inj same
      simp [List.nodup_append] at once
  · cases between with
    | nil => simp
    | cons e between =>
      obtain ⟨rfl, rfl⟩ := List.cons.inj same
      simp [List.nodup_append] at once

/-! ## Chains -/

/-- Every client wrote the list that it had read with its descriptor registered. -/
def Faithful (key : String) (first : Option Json) (descriptor : ι → Descriptor)
    (history : List (Exchange ι)) : Prop :=
  ∀ earlier client value answer later, history = earlier ++ .put client value answer :: later →
    ∃ before between ds, earlier = before ++ .got client (.ok (held first before)) :: between ∧
      listOf key (held first before) = .ok ds ∧ value = encode (upsert ds (descriptor client))

theorem Faithful.of_append {key : String} {descriptor : ι → Descriptor}
    {more : List (Exchange ι)} (h : Faithful key first descriptor (history ++ more)) :
    Faithful key first descriptor history := by
  intro earlier client value answer later split
  exact h earlier client value answer (later ++ more) (by rw [split]; simp)

theorem Lineage.read {chain : List ι} (h : Lineage first history chain) (client : ι)
    (answer : Except Error (Option Json)) :
    Lineage first (history ++ [.got client answer]) chain where
  inOrder := by simpa using h.inOrder
  last := by simpa using h.last
  readsFrom before i after split := (h.readsFrom before i after split).append _

/-- A client that writes goes on the chain of what it had read. -/
theorem Lineage.write {before between : List (Exchange ι)} {chain : List ι} {client : ι}
    (h : Lineage first before chain)
    (split : history = before ++ .got client (.ok (held first before)) :: between)
    (value : Json) (answer : Except Error Unit) :
    Lineage first (history ++ [.put client value answer]) (chain ++ [client]) where
  inOrder := by
    rw [split]
    simpa using h.inOrder.append (List.sublist_append_right (writers between) [client])
  last := by simp
  readsFrom front i back here := by
    rcases List.append_eq_append_iff.mp here with ⟨rest, rfl, same⟩ | ⟨rest, rfl, same⟩
    · cases rest with
      | nil =>
        obtain ⟨rfl, rfl⟩ := List.cons.inj same
        rw [split, List.append_nil]
        exact ⟨before, between ++ [.put client value answer], by simp, h.last.symm⟩
      | cons j rest => simp at same
    · cases rest with
      | nil =>
        obtain ⟨rfl, rfl⟩ := List.cons.inj same
        rw [split]
        exact ⟨before, between ++ [.put i value answer], by simp, by simpa using h.last.symm⟩
      | cons j rest =>
        obtain ⟨rfl, -⟩ := List.cons.inj same
        rw [split]
        simpa using (h.readsFrom front i rest rfl).append
          (.got client (.ok (held first before)) :: (between ++ [.put client value answer]))

/-- What is stored behind a faithful history is what a chain of registrations makes of the first
list. -/
theorem exists_lineage {key : String} {descriptor : ι → Descriptor} {old : List Descriptor}
    (stored : listOf key first = .ok old) (faithful : Faithful key first descriptor history) :
    ∃ chain, Lineage first history chain ∧
      listOf key (held first history) = .ok (upsertAll old (chain.map descriptor)) := by
  -- A write leads back to the history at its client's read, so one step shorter is not enough.
  induction size : history.length using Nat.strongRecOn generalizing history with
  | ind n ih =>
    rcases List.eq_nil_or_concat history with rfl | ⟨history, e, rfl⟩
    · exact ⟨[], ⟨by simp, rfl, by simp⟩, stored⟩
    · rw [List.concat_eq_append] at faithful size ⊢
      rw [List.length_append, List.length_singleton] at size
      cases e with
      | got client answer =>
        obtain ⟨chain, lineage, list⟩ := ih history.length (by omega) faithful.of_append rfl
        exact ⟨chain, lineage.read client answer, by simpa using list⟩
      | put client value answer =>
        obtain ⟨before, between, ds, split, read, rfl⟩ :=
          faithful history client value answer [] rfl
        have shorter : before.length < n := by
          rw [split, List.length_append, List.length_cons] at size
          omega
        have prior : Faithful key first descriptor before := by
          rw [split, List.append_assoc] at faithful
          exact faithful.of_append
        obtain ⟨chain, lineage, list⟩ := ih before.length shorter prior rfl
        refine ⟨chain ++ [client], lineage.write split _ answer, ?_⟩
        obtain rfl := Except.ok.inj (read.symm.trans list)
        simp [listOf, upsertAll]

/-- What was written last was written by a client or after it. -/
theorem exists_last_writer (earlier later : List (Exchange ι)) (client : ι) (value : Json)
    (answer : Except Error Unit) :
    ∃ i, (writers (earlier ++ .put client value answer :: later)).getLast? = some i ∧
      (i = client ∨ i ∈ writers later) := by
  rw [writers_append, writers_put]
  rcases List.eq_nil_or_concat (writers later) with none | ⟨front, i, some⟩
  · exact ⟨client, by simp [none], .inl rfl⟩
  · rw [List.concat_eq_append] at some
    refine ⟨i, ?_, .inr (by simp [some])⟩
    rw [some, ← List.cons_append, ← List.append_assoc, List.getLast?_concat]

/-- Who reads after a client has written reads what that client wrote, or what was written after
it. -/
theorem ReadsFrom.source_of_later {client i : ι} {value : Json} {answer : Except Error Unit}
    {source : Option ι} (h : ReadsFrom first history i source) (once : (readers history).Nodup)
    (split : history = earlier ++ .put client value answer :: later) (there : i ∈ readers later) :
    ∃ j, source = some j ∧ (j = client ∨ j ∈ writers later) := by
  obtain ⟨before, behind, reads, rfl⟩ := h
  obtain ⟨front, a, back, rfl⟩ := exists_of_mem_readers there
  have again : history =
      (earlier ++ .put client value answer :: front) ++ .got i a :: back := by simp [split]
  have same := eq_of_reads once reads again
  obtain ⟨j, last, which⟩ := exists_last_writer earlier front client value answer
  exact ⟨j, by rw [same, last], which.imp_right fun wrote => by simp [wrote]⟩

/-- A client that wrote is on the chain if all that wrote after it had read after it as well. -/
theorem Lineage.mem_of_undisturbed {chain : List ι} {client : ι} {value : Json}
    {answer : Except Error Unit} (h : Lineage first history chain)
    (once : (readers history).Nodup)
    (split : history = earlier ++ .put client value answer :: later)
    (undisturbed : ∀ i ∈ writers later, i ∈ readers later) : client ∈ chain := by
  -- Back along the chain: who is on it wrote after the client until the client itself is met.
  have back (front : List ι) : ∀ i rest, chain = front ++ i :: rest →
      i = client ∨ i ∈ writers later → client ∈ chain := by
    induction front using List.reverseRecOn with
    | nil =>
      rintro i rest here (rfl | wrote)
      · simp [here]
      · obtain ⟨j, source, -⟩ :=
          (h.readsFrom [] i rest here).source_of_later once split (undisturbed i wrote)
        simp at source
    | append_singleton front j ih =>
      rintro i rest here (rfl | wrote)
      · simp [here]
      · obtain ⟨k, source, which⟩ :=
          (h.readsFrom _ i rest here).source_of_later once split (undisturbed i wrote)
        obtain rfl : j = k := by simpa using source
        exact ih j (i :: rest) (by simp [here]) which
  obtain ⟨i, last, which⟩ := exists_last_writer earlier later client value answer
  rw [← split, ← h.last] at last
  obtain ⟨front, rfl⟩ := List.getLast?_eq_some_iff.mp last
  exact back front i [] rfl which

end CobolDialects.Catalog
