import CobolDialects.Proofs.Catalog.Keeping
import CobolDialects.Proofs.Catalog.Orderly

/-!
# Racing registrations

Any number of clients each register a descriptor under the same key of one store, and their calls
interleave in any way. Nobody else writes, so the history is faithful, and at every moment the
stored list is what a chain of the registrations makes of the first list.
-/

namespace CobolDialects.Catalog

open Settings

variable {σ ι : Type} [DecidableEq ι] {key : String} {first : Option Json}
  {holds : σ → Option Json → Prop} {fault : Error → Prop} {old : List Descriptor}

/-- Clients that are about to register, one descriptor each. -/
def racing (key : String) (descriptor : ι → Descriptor) (s : σ) : Clients σ ι Unit :=
  ⟨s, fun i => register key (descriptor i), []⟩

/-- Whatever the schedule, as long as all calls succeed, the list is at every moment what a chain of
registrations makes of the first list: each on the chain read exactly what the one before it had
written, and the last one wrote last. A registration that none disturbs, for all that wrote after it
had read after it as well, is on the chain, and so the list has its name from it or from one that
comes later on the chain. -/
theorem racing_registrations {stores : Nat → Store σ}
    (keeps : ∀ n, KeepsUnder key (stores n) holds fault) {s : σ} (start : holds s first)
    (stored : listOf key first = .ok old)
    (descriptor : ι → Descriptor) (schedule : List ι)
    (succeed : ∀ e ∈ ((racing key descriptor s).run stores schedule).history, e.succeeded) :
    let w := (racing key descriptor s).run stores schedule
    ∃ chain, Lineage first w.history chain ∧
      let final := upsertAll old (chain.map descriptor)
      ((list key).run (stores schedule.length) w.state).Gives fault (.ok final) (fun _ => True) ∧
      (∀ earlier client value answer later,
        w.history = earlier ++ .put client value answer :: later →
          (∀ i ∈ writers later, i ∈ readers later) → client ∈ chain) ∧
      (∀ before client after, chain = before ++ client :: after →
        ∃ i ∈ client :: after, (descriptor i).name = (descriptor client).name ∧
          ((find key (descriptor client).name).run (stores schedule.length) w.state).Gives fault
            (.ok (some (descriptor i))) (fun _ => True)) ∧
      ((old.map (·.name)).Nodup → (final.map (·.name)).Nodup) ∧
      ∀ client, (writers w.history).getLast? = some client →
        final.getLast? = some (descriptor client) := by
  intro w
  have moves : w = Clients.play stores (schedule.zipIdx.map Prod.swap) (racing key descriptor s) :=
    Clients.run_eq_play stores schedule _
  have orderly : Orderly key (fun i => some (descriptor i)) (fun _ _ _ => True)
      (fun i => register key (descriptor i)) w :=
    moves ▸ (orderly_first s).play (fun i => readsOnce_register (descriptor i)) stores _
  have sound : ∀ e ∈ w.history, ¬e.Faulty fault :=
    fun e there => Exchange.not_faulty (succeed e there)
  obtain ⟨alone, -, kept⟩ : Alone first Exchange.succeeded w.history ∧
      (∀ i, (w.actions i).Under key) ∧
      holds w.state (held first (w.history.filter Exchange.succeeded)) := by
    rw [moves] at sound ⊢
    exact (Steady.of_keepsUnder keeps).alone_play _
      (fun i => under_register key (descriptor i)) start
      sound
  -- All calls succeed, so there is none that the history could do without.
  have all : w.history.filter Exchange.succeeded = w.history := List.filter_eq_self.mpr succeed
  have faithful : Faithful key first descriptor w.history := by
    simpa [all] using orderly.derived.faithful alone
  rw [all] at kept
  obtain ⟨chain, lineage, list⟩ := exists_lineage stored faithful
  refine ⟨chain, lineage, ?_, ?_, ?_, nodup_upsertAll, ?_⟩
  · have gives := list_gives (keeps schedule.length) kept
    rw [list] at gives
    exact gives.mono fun _ _ => trivial
  · intro earlier client value answer later split undisturbed
    exact lineage.mem_of_undisturbed orderly.once split undisturbed
  · rintro before client after rfl
    obtain ⟨d, there, name, met⟩ := find?_upsertAll (upsertAll old (before.map descriptor))
      (List.mem_cons_self (a := descriptor client) (l := after.map descriptor))
    obtain ⟨i, inside, rfl⟩ := List.mem_map.mp (List.map_cons ▸ there)
    refine ⟨i, inside, name, ?_⟩
    have gives := find_gives (keeps schedule.length) kept (descriptor client).name
    rw [list, Except.map, List.map_append, List.map_cons, upsertAll_append, met] at gives
    exact gives.mono fun _ _ => trivial
  · intro client last
    rw [← lineage.last] at last
    obtain ⟨front, rfl⟩ := List.getLast?_eq_some_iff.mp last
    rw [List.map_append]
    exact getLast?_upsertAll_append old _ _

/-- A client that reads, and writes only after another one has read and written, has the last
entry. -/
theorem last_entry_of_overtaken_client :
    let descriptor (client : Nat) : Descriptor :=
      if client = 0 then ⟨"idms", "/a", "", "ext.a"⟩ else ⟨"daco", "/b", "", "ext.b"⟩
    let w := (racing "registry" descriptor []).run (fun _ => Memory.store) [0, 1, 1, 0]
    ∃ final, ((list "registry").run Memory.store w.state).result = .ok final ∧
      final.getLast? = some ⟨"idms", "/a", "", "ext.a"⟩ := by
  intro descriptor w
  have succeed : ∀ e ∈ w.history, e.succeeded := List.all_eq_true.mp (by decide +kernel)
  obtain ⟨chain, -, listing, -, -, -, last⟩ :=
    racing_registrations (fun _ => Memory.keeps.under "registry") ⟨[], rfl, rfl⟩ rfl descriptor
      [0, 1, 1, 0] succeed
  exact ⟨_, listing.certain.1, last 0 (by decide +kernel)⟩

end CobolDialects.Catalog
