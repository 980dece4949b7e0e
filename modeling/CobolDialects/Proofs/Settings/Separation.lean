import CobolDialects.Proofs.Settings.Clients
import CobolDialects.Proofs.Settings.Operation

/-!
# Runs without the calls under other keys

Two states of a store can be told apart under a key or not. Where calls under that key keep such
states together and calls under other keys do not take one of them away, all calls under other keys
can be left out of a run: whoever uses the key gets the same answers.
-/

namespace CobolDialects.Settings

variable {σ τ ι α β : Type}

/-! ## Calls -/

/-- A call to a store. -/
inductive Request where
  | get (key : String)
  | set (key : String) (value : Json)

/-- What a store answers. -/
inductive Reply where
  | value (found : Except Error (Option Json))
  | done (result : Except Error Unit)

namespace Request

def key : Request → String
  | .get key | .set key _ => key

/-- The request asks for nothing that a store may refuse to take or to give back. -/
def Sane : Request → Prop
  | .get _ => True
  | .set _ value => Storable value

/-- The answer to a request, and the state behind it. -/
def run (store : Store σ) (s : σ) : Request → Reply × σ
  | .get key => (.value (store.get key s).result, (store.get key s).state)
  | .set key value => (.done (store.set key value s).result, (store.set key value s).state)

end Request

/-- Requests one after the other, each against the store as it is at its turn. Gives them with their
answers, and the state behind them. -/
def replies (stores : τ → Store σ) : List (τ × Request) → σ → List (Request × Reply) × σ
  | [], s => ([], s)
  | (t, r) :: rest, s =>
    let (reply, after) := r.run (stores t) s
    let (later, last) := replies stores rest after
    ((r, reply) :: later, last)

/-! ## Clients that use one key -/

/-- All that the action calls for is under one key, and it sets nothing but storable values. -/
def Action.Under (key : String) : Action α → Prop
  | .done _ => True
  | .get used next => used = key ∧ ∀ answer, (next answer).Under key
  | .set used value next => used = key ∧ Storable value ∧ ∀ answer, (next answer).Under key
  | .emit _ next => next.Under key

theorem Action.under_bind {key : String} {a : Action α} {f : α → Action β} (h : a.Under key)
    (under : ∀ x, (f x).Under key) : (a.bind f).Under key := by
  induction a with
  | done result =>
    cases result with
    | ok x => exact under x
    | error e => trivial
  | get used next ih => exact ⟨h.1, fun answer => ih answer (h.2 answer)⟩
  | set used value next ih => exact ⟨h.1, h.2.1, fun answer => ih answer (h.2.2 answer)⟩
  | emit event next ih => exact ih h

theorem under_list (key : String) : (Catalog.list key).Under key := by
  refine ⟨rfl, fun answer => ?_⟩
  match answer with
  | .error _ | .ok none | .ok (some _) => trivial

theorem under_register (key : String) (d : Descriptor) : (Catalog.register key d).Under key :=
  Action.under_bind (under_list key) fun _ => ⟨rfl, Catalog.storable_encode _, fun _ => trivial⟩

/-- Each operation of the catalog stays under its key, and so does each single call. -/
theorem Operation.under_action {o : Operation}
    (h : ∀ key value, o = .set key value → Storable value) : o.action.Under o.key := by
  cases o with
  | get key => exact Action.under_bind ⟨rfl, fun _ => trivial⟩ fun _ => trivial
  | set key value =>
    exact Action.under_bind ⟨rfl, h key value rfl, fun _ => trivial⟩ fun _ => trivial
  | list key => exact Action.under_bind (under_list key) fun _ => trivial
  | find key name =>
    exact Action.under_bind (Action.under_bind (under_list key) fun _ => trivial) fun _ => trivial
  | paths key =>
    exact Action.under_bind (Action.under_bind (under_list key) fun _ => trivial) fun _ => trivial
  | register key d => exact Action.under_bind (under_register key d) fun _ => trivial

/-! ## States that cannot be told apart -/

/-- A relation of states that calls under a key keep, getting the same answers, and that calls under
other keys keep on one side alone. -/
structure Separates (stores : τ → Store σ) (key : String) (same : σ → σ → Prop) : Prop where
  get : ∀ {s s'} (t), same s s' →
    ((stores t).get key s).result = ((stores t).get key s').result ∧
      same ((stores t).get key s).state ((stores t).get key s').state
  set : ∀ {s s' value} (t), same s s' → Storable value →
    ((stores t).set key value s).result = ((stores t).set key value s').result ∧
      same ((stores t).set key value s).state ((stores t).set key value s').state
  otherGet : ∀ {s s' other} (t), same s s' → other ≠ key → same ((stores t).get other s).state s'
  otherSet : ∀ {s s' other value} (t), same s s' → other ≠ key → Storable value →
    same ((stores t).set other value s).state s'

variable {stores : τ → Store σ} {key : String} {same : σ → σ → Prop} {s s' : σ}

/-- What those who use a key see of a store is the same without all calls under other keys: the
answers, what they do next, and at last the value under the key. -/
structure Undisturbed (stores : τ → Store σ) (key : String) (s : σ) : Prop where
  /-- Whoever makes the calls, and whatever makes them do so. -/
  calls : ∀ calls : List (τ × Request), (∀ call ∈ calls, call.2.Sane) →
    let all := replies stores calls s
    let own := replies stores (calls.filter (·.2.key = key)) s
    own.1 = all.1.filter (·.1.key = key) ∧
      ∀ t, ((stores t).get key own.2).result = ((stores t).get key all.2).result
  /-- Clients that use one key each decide by the answers what they call for next. -/
  clients : ∀ {ι α : Type} [DecidableEq ι] (keys : ι → String) (actions : ι → Action α)
    (turns : List (τ × ι)), (∀ i, (actions i).Under (keys i)) →
    let all := Clients.play stores turns ⟨s, actions, []⟩
    let own := Clients.play stores (turns.filter (keys ·.2 = key)) ⟨s, actions, []⟩
    own.history = all.history.filter (keys ·.client = key) ∧
      (∀ i, keys i = key → own.actions i = all.actions i) ∧
      ∀ t, ((stores t).get key own.state).result = ((stores t).get key all.state).result

namespace Separates

/-! ## Calls one after the other -/

theorem run_own (h : Separates stores key same) (together : same s s') (t : τ) {r : Request}
    (sane : r.Sane) (own : r.key = key) :
    (r.run (stores t) s).1 = (r.run (stores t) s').1 ∧
      same (r.run (stores t) s).2 (r.run (stores t) s').2 := by
  subst own
  cases r with
  | get key =>
    obtain ⟨answer, still⟩ := h.get t together
    exact ⟨congrArg Reply.value answer, still⟩
  | set key value =>
    obtain ⟨answer, still⟩ := h.set t together sane
    exact ⟨congrArg Reply.done answer, still⟩

theorem run_other (h : Separates stores key same) (together : same s s') (t : τ) {r : Request}
    (sane : r.Sane) (other : r.key ≠ key) : same (r.run (stores t) s).2 s' := by
  cases r with
  | get used => exact h.otherGet t together other
  | set used value => exact h.otherSet t together other sane

theorem replies_filter (h : Separates stores key same) (together : same s s')
    (calls : List (τ × Request)) (sane : ∀ call ∈ calls, call.2.Sane) :
    (replies stores (calls.filter (·.2.key = key)) s').1 =
        (replies stores calls s).1.filter (·.1.key = key) ∧
      same (replies stores calls s).2 (replies stores (calls.filter (·.2.key = key)) s').2 := by
  induction calls generalizing s s' with
  | nil => exact ⟨rfl, together⟩
  | cons call rest ih =>
    obtain ⟨t, r⟩ := call
    have first := sane _ List.mem_cons_self
    have later := fun c there => sane c (List.mem_cons_of_mem _ there)
    by_cases own : r.key = key
    · obtain ⟨answer, still⟩ := h.run_own together t first own
      obtain ⟨answers, last⟩ := ih still later
      rw [List.filter_cons_of_pos (by simpa using own)]
      simp only [replies]
      rw [List.filter_cons_of_pos (by simpa using own)]
      exact ⟨by rw [answers, answer], last⟩
    · obtain ⟨answers, last⟩ := ih (h.run_other together t first own) later
      rw [List.filter_cons_of_neg (by simpa using own)]
      simp only [replies]
      rw [List.filter_cons_of_neg (by simpa using own)]
      exact ⟨answers, last⟩

/-! ## Clients that take turns -/

/-- A step of a client that uses the key is the same on both sides. -/
theorem step_own (h : Separates stores key same) (together : same s s') (t : τ) (client : ι)
    {a : Action α} (under : a.Under key) :
    a.step? client (stores t) s = none ∧ a.step? client (stores t) s' = none ∨
      ∃ e next after after', a.step? client (stores t) s = some (e, next, after) ∧
        a.step? client (stores t) s' = some (e, next, after') ∧ e.client = client ∧
        next.Under key ∧ same after after' := by
  induction a with
  | done result => exact .inl ⟨rfl, rfl⟩
  | get used next =>
    obtain ⟨rfl, under⟩ := under
    obtain ⟨answer, still⟩ := h.get t together
    refine .inr ⟨_, _, _, _, rfl, ?_, rfl, under _, still⟩
    simp only [Action.step?, answer]
  | set used value next =>
    obtain ⟨rfl, storable, under⟩ := under
    obtain ⟨answer, still⟩ := h.set t together storable
    refine .inr ⟨_, _, _, _, rfl, ?_, rfl, under _, still⟩
    simp only [Action.step?, answer]
  | emit event next ih => exact ih under

/-- A step of a client that uses another key makes no difference. -/
theorem step_other (h : Separates stores key same) (together : same s s') (t : τ) (client : ι)
    {other : String} (ne : other ≠ key) {a : Action α} (under : a.Under other) :
    a.step? client (stores t) s = none ∨
      ∃ e next after, a.step? client (stores t) s = some (e, next, after) ∧ e.client = client ∧
        next.Under other ∧ same after s' := by
  induction a with
  | done result => exact .inl rfl
  | get used next =>
    obtain ⟨rfl, under⟩ := under
    exact .inr ⟨_, _, _, rfl, rfl, under _, h.otherGet t together ne⟩
  | set used value next =>
    obtain ⟨rfl, storable, under⟩ := under
    exact .inr ⟨_, _, _, rfl, rfl, under _, h.otherSet t together ne storable⟩
  | emit event next ih => exact ih under

/-- What one run has come to, beside another one in which only those take turns who use the key. -/
structure Abreast (key : String) (same : σ → σ → Prop) (keys : ι → String)
    (all own : Clients σ ι α) : Prop where
  state : same all.state own.state
  under : ∀ i, (all.actions i).Under (keys i)
  actions : ∀ i, keys i = key → own.actions i = all.actions i
  history : own.history = all.history.filter (keys ·.client = key)

variable [DecidableEq ι] {keys : ι → String} {all own : Clients σ ι α}

theorem advance_own (h : Separates stores key same) (abreast : Abreast key same keys all own)
    (t : τ)
    {i : ι} (mine : keys i = key) :
    Abreast key same keys (all.advance (stores t) i) (own.advance (stores t) i) := by
  have under := abreast.under i
  rw [mine] at under
  rcases h.step_own abreast.state t i under with
    ⟨ended, ended'⟩ | ⟨e, next, after, after', step, step', client, goesOn, still⟩
  · rw [Clients.advance, ended, Clients.advance, abreast.actions i mine, ended']
    exact abreast
  · rw [← abreast.actions i mine] at step'
    rw [Clients.advance_of_step? step, Clients.advance_of_step? step']
    refine ⟨still, fun j => ?_, fun j hers => ?_, ?_⟩
    · simp only
      split_ifs with me
      · rw [me, mine]
        exact goesOn
      · exact abreast.under j
    · simp only [abreast.actions j hers]
    · simp [abreast.history, client, mine]

theorem advance_other (h : Separates stores key same) (abreast : Abreast key same keys all own)
    (t : τ) {i : ι} (other : keys i ≠ key) :
    Abreast key same keys (all.advance (stores t) i) own := by
  rcases h.step_other abreast.state t i other (abreast.under i) with
    ended | ⟨e, next, after, step, client, goesOn, still⟩
  · rw [Clients.advance, ended]
    exact abreast
  · rw [Clients.advance_of_step? step]
    refine ⟨still, fun j => ?_, fun j hers => ?_, ?_⟩
    · simp only
      split_ifs with me
      · rw [me]
        exact goesOn
      · exact abreast.under j
    · have ne : j ≠ i := fun me => other (me ▸ hers)
      simp only [if_neg ne, abreast.actions j hers]
    · simp [abreast.history, client, other]

theorem play (h : Separates stores key same) (abreast : Abreast key same keys all own)
    (turns : List (τ × ι)) : Abreast key same keys (all.play stores turns)
      (own.play stores (turns.filter (keys ·.2 = key))) := by
  induction turns generalizing all own with
  | nil => exact abreast
  | cons turn rest ih =>
    by_cases mine : keys turn.2 = key
    · rw [List.filter_cons_of_pos (by simpa using mine)]
      exact ih (h.advance_own abreast turn.1 mine)
    · rw [List.filter_cons_of_neg (by simpa using mine)]
      exact ih (h.advance_other abreast turn.1 mine)

omit [DecidableEq ι] in
/-- From a state that cannot be told apart from itself, nobody who uses the key is disturbed. -/
theorem undisturbed (h : Separates stores key same) (start : same s s) :
    Undisturbed stores key s where
  calls calls sane := by
    obtain ⟨answers, last⟩ := h.replies_filter start calls sane
    exact ⟨answers, fun t => (h.get t last).1.symm⟩
  clients keys actions turns under := by
    have atFirst : Abreast key same keys ⟨s, actions, []⟩ ⟨s, actions, []⟩ :=
      ⟨start, under, fun _ _ => rfl, rfl⟩
    have abreast := h.play atFirst turns
    exact ⟨abreast.history, abreast.actions, fun t => (h.get t abreast.state).1.symm⟩

end Separates

end CobolDialects.Settings
