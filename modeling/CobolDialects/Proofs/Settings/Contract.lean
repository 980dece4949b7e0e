import CobolDialects.Json.Reader
import CobolDialects.Proofs.Json.Canonical
import CobolDialects.Settings.Memory

/-!
# What a store is held to

A store keeps a table from keys to values. Its own state may be anything: what ties it to the table
is a relation that every call preserves. A call may fail with a fault of what lies below the store,
about which nothing is promised; if it does not, it answers as a table in memory does. An action
that hands failures on then comes to the same result on every such store. Who uses a single key asks
less: that the store keeps the value of that key, whatever is under the others.
-/

namespace CobolDialects.Settings

/-- A value that every store takes and gives back as it is. -/
structure Storable (v : Json) : Prop where
  canonical : v.IsCanonical
  floatFree : v.floatFree
  depth_lt : v.depth < Json.maxDepth

variable {σ α β : Type}

/-- The call comes to a result, in a state of which something holds, unless there is a fault. -/
def Outcome.Gives (fault : Error → Prop) (o : Outcome σ α) (result : Except Error α)
    (holds : σ → Prop) : Prop :=
  o.result = result ∧ holds o.state ∨ ∃ e, fault e ∧ o.result = .error e

theorem Outcome.after_andThen (events : List Event) (o : Outcome σ α)
    (next : α → σ → Outcome σ β) :
    (o.andThen next).after events = (o.after events).andThen next := by
  obtain ⟨result, s, inner⟩ := o
  cases result with
  | ok a => simp [andThen, after]
  | error e => rfl

namespace Outcome.Gives

variable {fault : Error → Prop} {o : Outcome σ α} {result : Except Error α} {holds : σ → Prop}

theorem after (events : List Event) (h : o.Gives fault result holds) :
    (o.after events).Gives fault result holds := h

theorem mono {holds' : σ → Prop} (h : o.Gives fault result holds) (le : ∀ s, holds s → holds' s) :
    o.Gives fault result holds' :=
  h.imp_left fun ⟨answer, state⟩ => ⟨answer, le _ state⟩

theorem map {f : α → β} (h : o.Gives fault result holds) :
    (o.map f).Gives fault (result.map f) holds := by
  rcases h with ⟨answer, state⟩ | ⟨e, faulty, failed⟩
  · exact .inl ⟨congrArg (Except.map f) answer, state⟩
  · exact .inr ⟨e, faulty, congrArg (Except.map f) failed⟩

/-- Without faults the result is certain. -/
theorem certain (h : o.Gives (fun _ => False) result holds) :
    o.result = result ∧ holds o.state := by
  rcases h with h | ⟨e, absurd, -⟩
  · exact h
  · exact absurd.elim

/-- A call that succeeds has met no fault. -/
theorem of_ok {a : α} (h : o.Gives fault result holds) (ok : o.result = .ok a) :
    result = .ok a ∧ holds o.state := by
  rcases h with ⟨same, state⟩ | ⟨e, -, failed⟩
  · exact ⟨same.symm.trans ok, state⟩
  · rw [ok] at failed
    cases failed

end Outcome.Gives

/-- A store keeps a table: `holds` ties its state to the table, and `fault` tells the failures that
are not its own. -/
structure Keeps (store : Store σ) (holds : σ → Members → Prop) (fault : Error → Prop) : Prop where
  get : ∀ {s table} (key), holds s table →
    (store.get key s).Gives fault (.ok (table.find? key)) (holds · table)
  set : ∀ {s table value} (key), holds s table → Storable value →
    (store.set key value s).Gives fault (.ok ()) (holds · (table.upsert key value))

/-- A table in memory keeps itself. -/
theorem Memory.keeps : Keeps Memory.store (fun s table => s = table) fun _ => False where
  get _ same := .inl ⟨by rw [same]; rfl, same⟩
  set _ same _ := .inl ⟨rfl, by rw [same]; rfl⟩

/-- A store keeps the value of a key: `holds` ties its state to the value, if there is one. -/
structure KeepsUnder (key : String) (store : Store σ) (holds : σ → Option Json → Prop)
    (fault : Error → Prop) : Prop where
  get : ∀ {s value?}, holds s value? → (store.get key s).Gives fault (.ok value?) (holds · value?)
  set : ∀ {s value? value}, holds s value? → Storable value →
    (store.set key value s).Gives fault (.ok ()) (holds · (some value))

/-- Who keeps a table keeps the value of every key. -/
theorem Keeps.under {store : Store σ} {holds : σ → Members → Prop} {fault : Error → Prop}
    (keeps : Keeps store holds fault) (key : String) :
    KeepsUnder key store (fun s value? => ∃ table, holds s table ∧ table.find? key = value?)
      fault where
  get := by
    rintro s value? ⟨table, kept, rfl⟩
    exact (keeps.get key kept).mono fun _ still => ⟨table, still, rfl⟩
  set := by
    rintro s value? value ⟨table, kept, -⟩ storable
    exact (keeps.set key kept storable).mono fun _ still =>
      ⟨_, still, by simp [Members.find?_upsert]⟩

/-! ## Actions -/

/-- The action hands every failure on at once, and sets nothing but storable values. -/
def Action.Careful : Action α → Prop
  | .done _ => True
  | .get _ next => (∀ e, next (.error e) = .done (.error e)) ∧ ∀ answer, (next (.ok answer)).Careful
  | .set _ value next =>
    Storable value ∧ (∀ e, next (.error e) = .done (.error e)) ∧ (next (.ok ())).Careful
  | .emit _ next => next.Careful

namespace Action

theorem careful_bind {a : Action α} {f : α → Action β} (h : a.Careful)
    (careful : ∀ x, (f x).Careful) : (a.bind f).Careful := by
  induction a with
  | done result =>
    cases result with
    | ok x => exact careful x
    | error e => trivial
  | get key next ih => exact ⟨fun e => congrArg (·.bind f) (h.1 e), fun _ => ih _ (h.2 _)⟩
  | set key value next ih => exact ⟨h.1, fun e => congrArg (·.bind f) (h.2.1 e), ih _ h.2.2⟩
  | emit event next ih => exact ih h

theorem careful_map {a : Action α} (h : a.Careful) (f : α → β) : (a.map f).Careful :=
  careful_bind h fun _ => trivial

theorem run_bind (store : Store σ) (a : Action α) (f : α → Action β) (s : σ) :
    (a.bind f).run store s = (a.run store s).andThen fun x after => (f x).run store after := by
  induction a generalizing s with
  | done result => cases result <;> rfl
  | get key next ih =>
    rw [bind, run, ih, Outcome.after_andThen]
    rfl
  | set key value next ih =>
    rw [bind, run, ih, Outcome.after_andThen]
    rfl
  | emit event next ih =>
    rw [bind, run, ih, Outcome.after_andThen]
    rfl

theorem run_map (store : Store σ) (a : Action α) (f : α → β) (s : σ) :
    (a.map f).run store s = (a.run store s).map f := by
  rw [map, run_bind]
  obtain ⟨result, state, events⟩ := a.run store s
  cases result <;> simp [Outcome.andThen, Outcome.map, Outcome.after, run, Except.map]

/-- A careful action comes to what it comes to on a table in memory. -/
theorem run_gives {store : Store σ} {holds : σ → Members → Prop} {fault : Error → Prop}
    (keeps : Keeps store holds fault) {a : Action α} (careful : a.Careful) {s : σ}
    {table : Members} (h : holds s table) :
    (a.run store s).Gives fault (a.run Memory.store table).result
      (holds · (a.run Memory.store table).state) := by
  induction a generalizing s table with
  | done result => exact .inl ⟨rfl, h⟩
  | get key next ih =>
    rcases keeps.get key h with ⟨answer, kept⟩ | ⟨e, faulty, failed⟩
    · rw [run, answer]
      exact (ih _ (careful.2 _) kept).after _
    · refine .inr ⟨e, faulty, ?_⟩
      rw [run, failed, careful.1]
      rfl
  | set key value next ih =>
    rcases keeps.set key h careful.1 with ⟨answer, kept⟩ | ⟨e, faulty, failed⟩
    · rw [run, answer]
      exact (ih _ careful.2.2 kept).after _
    · refine .inr ⟨e, faulty, ?_⟩
      rw [run, failed, careful.2.1]
      rfl
  | emit event next ih => exact (ih careful h).after _

/-! ## Actions in turn -/

/-- The result is a failure with a fault. -/
def Faulty (fault : Error → Prop) : Except Error α → Prop
  | .ok _ => False
  | .error e => fault e

instance (fault : Error → Prop) [DecidablePred fault] (result : Except Error α) :
    Decidable (Faulty fault result) :=
  match result with
  | .ok _ => inferInstanceAs (Decidable False)
  | .error e => inferInstanceAs (Decidable (fault e))

/-- Runs actions one after the other, each against the store as it is at its turn. Gives their
results and the state behind them. -/
def inTurn (stores : Nat → Store σ) : List (Action α) → σ → List (Except Error α) × σ
  | [], s => ([], s)
  | a :: rest, s =>
    let o := a.run (stores 0) s
    let (results, last) := inTurn (fun n => stores (n + 1)) rest o.state
    (o.result :: results, last)

theorem inTurn_cons (stores : Nat → Store σ) (a : Action α) (rest : List (Action α)) (s : σ) :
    inTurn stores (a :: rest) s =
      ((a.run (stores 0) s).result ::
          (inTurn (fun n => stores (n + 1)) rest (a.run (stores 0) s).state).1,
        (inTurn (fun n => stores (n + 1)) rest (a.run (stores 0) s).state).2) := rfl

/-- As long as there are no faults, careful actions come to what they come to on a table in
memory. -/
theorem inTurn_gives {stores : Nat → Store σ} {holds : σ → Members → Prop} {fault : Error → Prop}
    (keeps : ∀ n, Keeps (stores n) holds fault) {actions : List (Action α)}
    (careful : ∀ a ∈ actions, a.Careful) {s : σ} {table : Members} (h : holds s table)
    (sound : ∀ result ∈ (inTurn stores actions s).1, ¬Faulty fault result) :
    (inTurn stores actions s).1 = (inTurn (fun _ => Memory.store) actions table).1 ∧
      holds (inTurn stores actions s).2 (inTurn (fun _ => Memory.store) actions table).2 := by
  induction actions generalizing stores s table with
  | nil => exact ⟨rfl, h⟩
  | cons a actions ih =>
    rw [inTurn_cons] at sound
    rw [inTurn_cons, inTurn_cons]
    rcases run_gives (keeps 0) (careful a List.mem_cons_self) h with
      ⟨same, kept⟩ | ⟨e, faulty, failed⟩
    · have rest := ih (fun n => keeps (n + 1))
        (fun b there => careful b (List.mem_cons_of_mem _ there))
        kept fun result there => sound result (List.mem_cons_of_mem _ there)
      exact ⟨congrArg₂ List.cons same rest.1, rest.2⟩
    · have first := sound _ List.mem_cons_self
      rw [failed] at first
      exact absurd faulty first

end Action

end CobolDialects.Settings
