import CobolDialects.Proofs.Settings.Separation
import CobolDialects.Proofs.Catalog.Laws
import CobolDialects.Settings.DatabaseFile
import CobolDialects.Settings.File

/-!
# What registering announces

A registration is announced before it is stored, with an event that says whether it replaces entries
of the list that has just been read. The event is told from those of the store by the trace of the
operation, which has everything that happens in the order in which it does. Where no name occurs
twice the events keep account of the length of the list.
-/

namespace CobolDialects

namespace Event

/-- An info event of the catalog. -/
def IsAnnouncement (event : Event) : Prop :=
  event.level = .info ∧ event.target = "dialect_registry::catalog::dialects"

instance (event : Event) : Decidable event.IsAnnouncement := instDecidableAnd

/-- The event announces a descriptor that replaces none. -/
def isRegistering : Event → Bool
  | .registering false _ _ => true
  | _ => false

theorem isAnnouncement_registering (replacing : Bool) (name owner : String) :
    (registering replacing name owner).IsAnnouncement := ⟨rfl, rfl⟩

theorem not_isAnnouncement_notSet (key : String) : ¬(notSet key).IsAnnouncement :=
  fun h => nomatch h.1

end Event

namespace Settings

variable {σ α β : Type}

namespace Action

/-! ## Traces -/

/-- What happens at one time while an action is run: the store is called, answers and reports events
of its own, or the action reports one. -/
inductive Deed where
  | call (request : Request) (reply : Reply) (events : List Event)
  | report (event : Event)

namespace Deed

def events : Deed → List Event
  | call _ _ events => events
  | report event => [event]

/-- The event that the action reports. -/
def own : Deed → Option Event
  | call _ _ _ => none
  | report event => some event

end Deed

/-- All that happens while an action is run, in order. -/
def trace (store : Store σ) : Action α → σ → List Deed
  | .done _, _ => []
  | .get key next, s =>
    let o := store.get key s
    .call (.get key) (.value o.result) o.events :: (next o.result).trace store o.state
  | .set key value next, s =>
    let o := store.set key value s
    .call (.set key value) (.done o.result) o.events :: (next o.result).trace store o.state
  | .emit event next, s => .report event :: next.trace store s

/-- The announcements among what an action reports itself. -/
def announced (deeds : List Deed) : List Event :=
  (deeds.filterMap Deed.own).filter fun event => event.IsAnnouncement

/-- The trace accounts for the events of the run. -/
theorem events_run (store : Store σ) (a : Action α) (s : σ) :
    (a.run store s).events = (a.trace store s).flatMap Deed.events := by
  induction a generalizing s with
  | done result => rfl
  | get key next ih => exact congrArg (_ ++ ·) (ih _ _)
  | set key value next ih => exact congrArg (_ ++ ·) (ih _ _)
  | emit event next ih => exact congrArg (_ ++ ·) (ih _)

theorem trace_bind (store : Store σ) (a : Action α) (f : α → Action β) (s : σ) :
    (a.bind f).trace store s = a.trace store s ++
      match (a.run store s).result with
      | .ok x => (f x).trace store (a.run store s).state
      | .error _ => [] := by
  induction a generalizing s with
  | done result => cases result <;> rfl
  | get key next ih => exact congrArg (List.cons _) (ih _ _)
  | set key value next ih => exact congrArg (List.cons _) (ih _ _)
  | emit event next ih => exact congrArg (List.cons _) (ih _)

/-- All that happens while actions are run one after the other, each against the store as it is at
its turn. -/
def traceInTurn (stores : Nat → Store σ) : List (Action α) → σ → List Deed
  | [], _ => []
  | a :: rest, s =>
    a.trace (stores 0) s ++ traceInTurn (fun n => stores (n + 1)) rest (a.run (stores 0) s).state

theorem announced_append (before after : List Deed) :
    announced (before ++ after) = announced before ++ announced after := by
  simp [announced]

end Action

/-! ## Stores that keep to their own events -/

/-- The store announces no registrations. -/
structure Discreet (store : Store σ) : Prop where
  get : ∀ key s, ∀ event ∈ (store.get key s).events, ¬event.IsAnnouncement
  set : ∀ key value s, ∀ event ∈ (store.set key value s).events, ¬event.IsAnnouncement

/-- Of what the run of an action reports to a log, the announcements are the action's. -/
theorem Discreet.announcements_run {store : Store σ} (discreet : Discreet store) (a : Action α)
    (s : σ) : ((a.run store s).events.filter fun event => event.IsAnnouncement) =
      Action.announced (a.trace store s) := by
  have silent {events : List Event} (h : ∀ event ∈ events, ¬event.IsAnnouncement) :
      (events.filter fun event => event.IsAnnouncement) = [] :=
    List.filter_eq_nil_iff.mpr fun event there => by simpa using h event there
  induction a generalizing s with
  | done result => rfl
  | get key next ih =>
    rw [Action.run, Outcome.after, List.filter_append, silent (discreet.get key s)]
    exact ih _ _
  | set key value next ih =>
    rw [Action.run, Outcome.after, List.filter_append, silent (discreet.set key value s)]
    exact ih _ _
  | emit event next ih =>
    rw [Action.run, Outcome.after, List.filter_append, ih]
    exact (Action.announced_append [.report event] (next.trace store s)).symm

theorem Memory.discreet : Discreet Memory.store where
  get _ _ _ there := nomatch there
  set _ _ _ event there := by
    obtain rfl := List.mem_singleton.mp there
    exact fun h => nomatch h.1

theorem File.discreet (refusals : File.Refusals) (file : Path) :
    Discreet (File.store refusals file) := by
  have loading (fs : FileSystem) : ∀ event ∈ File.loadEvents file fs, ¬event.IsAnnouncement := by
    intro event there
    rw [File.loadEvents] at there
    split at there
    · obtain rfl := List.mem_singleton.mp there
      exact fun h => nomatch h.1
    · cases there
  refine ⟨fun _ => loading, fun key value fs event there => ?_⟩
  simp only [File.store, File.set] at there
  split at there
  · exact loading fs event there
  · split at there
    · rcases List.mem_append.mp there with there | there
      · exact loading fs event there
      · obtain rfl := List.mem_singleton.mp there
        exact fun h => absurd h.2 (by simp [Event.target])
    · exact loading fs event there

theorem DatabaseFile.discreet (time : Int) (slot : Nat) :
    Discreet (DatabaseFile.store time slot) := by
  have silent {α : Type} (a : Attempt α) (e : Engine) : (ofAttempt a e).events = [] := by
    rw [ofAttempt]
    split <;> rfl
  refine ⟨fun key e event there => ?_, fun key value e event there => ?_⟩
  · simp only [store, get, Outcome.andThen] at there
    split at there
    · simp [Outcome.same, Outcome.after, silent] at there
    · simp [silent] at there
  · simp only [store, set, reporting] at there
    split at there
    · simp only [silent, List.nil_append, List.mem_singleton] at there
      subst there
      rintro ⟨absurd, -⟩
      cases absurd
    · simp [silent] at there

end Settings

namespace Catalog

open Settings

variable {σ : Type} {old : List Descriptor} {key : String}

/-! ## One registration -/

/-- A list is longer than what is left without the entries of a name if there is one. So registering
makes out whether it replaces an entry. -/
theorem registration_eq (ds : List Descriptor) (d : Descriptor) :
    registration ds d =
      .registering (ds.length ≠ (ds.filter (·.name ≠ d.name)).length) d.name d.owner := by
  have any : ds.any (·.name = d.name) =
      decide (ds.length ≠ (ds.filter (·.name ≠ d.name)).length) := by
    rw [Bool.eq_iff_iff, decide_eq_true_eq, ne_comm, Ne, List.length_filter_eq_length_iff]
    simp
  rw [registration, any]

/-- A replacement does not make the list longer, any other registration does by one. -/
theorem registration_cases (ds : List Descriptor) (d : Descriptor) :
    if ∃ x ∈ ds, x.name = d.name then
      registration ds d = .registering true d.name d.owner ∧ (upsert ds d).length ≤ ds.length
    else
      registration ds d = .registering false d.name d.owner ∧
        (upsert ds d).length = ds.length + 1 := by
  have total : (upsert ds d).length = (ds.filter (·.name ≠ d.name)).length + 1 := by simp [upsert]
  rw [registration_eq, total]
  split_ifs with there
  · have shorter : (ds.filter (·.name ≠ d.name)).length < ds.length := by
      apply List.length_filter_lt_length_iff_exists.mpr
      obtain ⟨x, inside, same⟩ := there
      exact ⟨x, inside, by simp [same]⟩
    exact ⟨by rw [decide_eq_true (Nat.ne_of_gt shorter)], shorter⟩
  · have all : ds.filter (·.name ≠ d.name) = ds := by
      apply List.filter_eq_self.mpr
      intro x inside
      exact decide_eq_true fun same => there ⟨x, inside, same⟩
    rw [all]
    exact ⟨by rw [decide_eq_false (not_not_intro rfl)], rfl⟩

/-- What happens while a list is read. -/
def reading (store : Store σ) (key : String) (s : σ) : List Action.Deed :=
  let got := store.get key s
  .call (.get key) (.value got.result) got.events ::
    match got.result with
    | .ok none => [.report (.notSet key)]
    | _ => []

theorem trace_list (store : Store σ) (key : String) (s : σ) :
    (list key).trace store s = reading store key s := by
  rw [reading, list, Action.trace]
  cases (store.get key s).result with
  | error e => rfl
  | ok found => cases found <;> rfl

theorem announced_reading (store : Store σ) (key : String) (s : σ) :
    Action.announced (reading store key s) = [] := by
  have silent := Event.not_isAnnouncement_notSet key
  rw [reading, Action.announced]
  split <;> simp [Action.Deed.own, silent]

/-- To read takes one call, which changes nothing. -/
theorem calls_reading {store : Store σ} {s : σ} {request : Request} {reply : Reply}
    {told : List Event} (h : .call request reply told ∈ reading store key s) :
    request = .get key := by
  rw [reading] at h
  split at h <;> simp at h <;> exact h.1

/-- A registration is announced behind the list that was read, and ahead of the call that writes the
new one. -/
theorem trace_register {store : Store σ} {s : σ} {ds : List Descriptor}
    (h : ((list key).run store s).result = .ok ds) (d : Descriptor) :
    let put := store.set key (encode (upsert ds d)) ((list key).run store s).state
    (register key d).trace store s = reading store key s ++ [.report (registration ds d),
        .call (.set key (encode (upsert ds d))) (.done put.result) put.events] ∧
      ((register key d).run store s).result = put.result := by
  intro put
  constructor
  · rw [register, Action.trace_bind, h, trace_list]
    rfl
  · rw [register, Action.run_bind, Outcome.andThen, h]
    rfl

theorem trace_register_of_error {store : Store σ} {s : σ} {e : Error}
    (h : ((list key).run store s).result = .error e) (d : Descriptor) :
    (register key d).trace store s = reading store key s := by
  rw [register, Action.trace_bind, h, trace_list, List.append_nil]

theorem announced_register {store : Store σ} {s : σ} {ds : List Descriptor}
    (h : ((list key).run store s).result = .ok ds) (d : Descriptor) :
    Action.announced ((register key d).trace store s) = [registration ds d] := by
  rw [(trace_register h d).1, Action.announced_append, announced_reading]
  have announcement : (registration ds d).IsAnnouncement := Event.isAnnouncement_registering _ _ _
  simp [Action.announced, Action.Deed.own, announcement]

/-! ## Runs of registrations -/

variable {stores : Nat → Store σ} {holds : σ → Option Json → Prop} {fault : Error → Prop} {s : σ}
  {value? : Option Json}

/-- What registrations that follow one another announce, from a list on. -/
def registrations : List Descriptor → List Descriptor → List Event
  | _, [] => []
  | old, d :: ds => registration old d :: registrations (upsert old d) ds

/-- From a list without a repeated name on, every descriptor that is announced as new is one
more. -/
theorem length_upsertAll (h : (old.map (·.name)).Nodup) (ds : List Descriptor) :
    (upsertAll old ds).length =
      old.length + (registrations old ds).countP Event.isRegistering := by
  induction ds generalizing old with
  | nil => rfl
  | cons d ds ih =>
    have rest := ih (nodup_upsert h d)
    have first := length_upsert_of_nodup h d
    have step : upsertAll old (d :: ds) = upsertAll (upsert old d) ds := rfl
    rw [step, rest, registrations, List.countP_cons, registration]
    cases found : old.any (·.name = d.name) <;>
      simp [found, Event.isRegistering] at first ⊢ <;> omega

/-- A registration that succeeds has read the list that is stored, and has written it with the
descriptor. -/
theorem register_of_ok {store : Store σ} (keeps : KeepsUnder key store holds fault)
    (start : holds s value?) (stored : listOf key value? = .ok old) {d : Descriptor}
    (succeeds : ((register key d).run store s).result = .ok ()) :
    ((list key).run store s).result = .ok old ∧
      holds ((register key d).run store s).state (some (encode (upsert old d))) := by
  refine ⟨?_, ((register_gives keeps start stored d).of_ok succeeds).2⟩
  rcases list_gives keeps start with ⟨same, -⟩ | ⟨e, -, failed⟩
  · exact same.trans stored
  · rw [register, Action.run_bind, Outcome.andThen, failed] at succeeds
    cases succeeds

/-- Registrations that all succeed announce what the lists between them tell. -/
theorem announced_registrations (keeps : ∀ n, KeepsUnder key (stores n) holds fault)
    (start : holds s value?) (stored : listOf key value? = .ok old) (ds : List Descriptor)
    (succeed : ∀ r ∈ (Action.inTurn stores (ds.map (register key)) s).1, r = .ok ()) :
    Action.announced (Action.traceInTurn stores (ds.map (register key)) s) = registrations old ds ∧
      ∃ left, holds (Action.inTurn stores (ds.map (register key)) s).2 left ∧
        listOf key left = .ok (upsertAll old ds) := by
  induction ds generalizing stores s value? old with
  | nil => exact ⟨rfl, value?, start, stored⟩
  | cons d ds ih =>
    obtain ⟨first, later⟩ := List.forall_mem_cons.mp succeed
    obtain ⟨read, kept⟩ := register_of_ok (keeps 0) start stored first
    obtain ⟨announced, left⟩ :=
      ih (fun n => keeps (n + 1)) kept (decode_encode key (upsert old d)) later
    refine ⟨?_, left⟩
    rw [List.map_cons, Action.traceInTurn, Action.announced_append, announced_register read,
      announced]
    rfl

/-- On any store and from any state on, a registration that cannot read the list announces nothing.
Any other announces once, when it has read the list and before it writes, and then writes, well or
not: it says that it replaces a dialect if the list that it read has an entry of the name, and if so
the list that it writes is not longer; else it says that it registers one. So on stores that keep
the value of the key and have no other writers, registrations that all succeed make a list without
repeated names longer by as many entries as they say that they register. -/
theorem announcements_of_registering (key : String) :
    (∀ {σ : Type} (store : Store σ) (s : σ) (d : Descriptor),
      let o := (register key d).run store s
      let deeds := (register key d).trace store s
      o.events = deeds.flatMap Action.Deed.events ∧
      match ((list key).run store s).result with
      | .error _ => Action.announced deeds = []
      | .ok listed => ∃ before event told,
        deeds = before ++
          [.report event, .call (.set key (encode (upsert listed d))) (.done o.result) told] ∧
        Action.announced deeds = [event] ∧
        (∀ request reply told, .call request reply told ∈ before → request = .get key) ∧
        if ∃ x ∈ listed, x.name = d.name then
          event.message = s!"Replacing dialect {d.name} from {d.owner}" ∧
            ¬event.isRegistering ∧ (upsert listed d).length ≤ listed.length
        else
          event.message = s!"Registering dialect {d.name} from {d.owner}" ∧
            event.isRegistering ∧ (upsert listed d).length = listed.length + 1) ∧
    ∀ {σ : Type} {stores : Nat → Store σ} {holds : σ → Option Json → Prop} {fault : Error → Prop}
      {s : σ} {value? : Option Json} {old : List Descriptor},
      (∀ n, KeepsUnder key (stores n) holds fault) → holds s value? → listOf key value? = .ok old →
      (∀ d, ((register key d).run (stores 0) s).result = .ok () →
        ∃ left, Shows stores fault key left ((register key d).run (stores 0) s).state ∧
          ∀ event ∈ Action.announced ((register key d).trace (stores 0) s),
            ¬event.isRegistering → left.length ≤ old.length) ∧
      ∀ ds : List Descriptor,
        (∀ r ∈ (Action.inTurn stores (ds.map (register key)) s).1, r = .ok ()) →
        (old.map (·.name)).Nodup →
        ∃ final, Shows stores fault key final (Action.inTurn stores (ds.map (register key)) s).2 ∧
          final.length = old.length +
            (Action.announced (Action.traceInTurn stores (ds.map (register key)) s)).countP
              Event.isRegistering := by
  constructor
  · intro σ store s d o deeds
    refine ⟨Action.events_run store _ s, ?_⟩
    cases read : ((list key).run store s).result with
    | error e =>
      have nothing := announced_reading store key s
      rwa [← trace_register_of_error read d] at nothing
    | ok listed =>
      obtain ⟨course, result⟩ := trace_register read d
      refine ⟨reading store key s, registration listed d,
        (store.set key (encode (upsert listed d)) ((list key).run store s).state).events,
        ?_, announced_register read d, fun _ _ _ there => calls_reading there, ?_⟩
      · rw [← result] at course
        exact course
      · have said := registration_cases listed d
        split_ifs at said ⊢ with there
        · obtain ⟨event, length⟩ := said
          rw [event]
          exact ⟨rfl, Bool.false_ne_true, length⟩
        · obtain ⟨event, length⟩ := said
          rw [event]
          exact ⟨rfl, rfl, length⟩
  · intro σ stores holds fault s value? old keeps start stored
    refine ⟨fun d succeeds => ?_, fun ds succeed distinct => ?_⟩
    · obtain ⟨read, kept⟩ := register_of_ok (keeps 0) start stored succeeds
      refine ⟨upsert old d, shows_of_holds keeps kept (decode_encode key _), ?_⟩
      rw [announced_register read]
      intro event there replaces
      obtain rfl := List.mem_singleton.mp there
      have said := registration_cases old d
      split_ifs at said
      · exact said.2
      · rw [said.1] at replaces
        exact absurd rfl replaces
    · obtain ⟨announced, left, kept, final⟩ := announced_registrations keeps start stored ds succeed
      refine ⟨upsertAll old ds, shows_of_holds keeps kept final, ?_⟩
      rw [announced]
      exact length_upsertAll distinct ds

/-- A name that is registered again is announced as replaced, and only the name that is new makes
the list longer. -/
theorem announcements_of_registering_again :
    let old : List Descriptor := [⟨"idms", "/a", "", "ext.a"⟩]
    let ds : List Descriptor :=
      [⟨"idms", "/b", "", "ext.b"⟩, ⟨"daco", "", "", ""⟩, ⟨"daco", "/d", "", ""⟩]
    let stores (_ : Nat) : Store Members := Memory.store
    let s : Members := [("registry", encode old)]
    let said := Action.announced (Action.traceInTurn stores (ds.map (register "registry")) s)
    said.map Event.message = ["Replacing dialect idms from ext.b", "Registering dialect daco from ",
      "Replacing dialect daco from "] ∧
    ∃ final, Shows stores (fun _ => False) "registry" final
        (Action.inTurn stores (ds.map (register "registry")) s).2 ∧
      final.length = 1 + said.countP Event.isRegistering := by
  intro old ds stores s said
  have stored : listOf "registry" (some (encode old)) = .ok old := decode_encode "registry" old
  have keeps (n : Nat) := Memory.keeps.under "registry"
  have start : ∃ t, s = t ∧ t.find? "registry" = some (encode old) := ⟨s, rfl, rfl⟩
  have succeed := (leaves_listed keeps start stored ds).certain.1
  refine ⟨by decide, ?_⟩
  exact ((announcements_of_registering "registry").2 keeps start stored).2 ds succeed (by decide)

end Catalog

end CobolDialects
