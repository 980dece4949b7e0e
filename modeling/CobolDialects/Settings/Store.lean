import CobolDialects.Settings.Error
import CobolDialects.Settings.Event

/-!
# Stores, and actions on them

A store reads and writes whole values under keys. What a client does with a store is an action:
a tree of calls in which each answer decides how to go on, so that the same action can be run
against any store and its calls can be told without one.
-/

namespace CobolDialects.Settings

/-- What a call answers, the state it leaves behind, and the events it reports. -/
structure Outcome (σ α : Type) where
  result : Except Error α
  state : σ
  events : List Event

namespace Outcome

variable {σ τ α β : Type}

/-- A call that answers and changes nothing. -/
def same (s : σ) (result : Except Error α) : Outcome σ α := ⟨result, s, []⟩

/-- The outcome with events put before its own. -/
def after (events : List Event) (o : Outcome σ α) : Outcome σ α :=
  { o with events := events ++ o.events }

/-- Goes on with an answer, unless it is an error. -/
def andThen (o : Outcome σ α) (next : α → σ → Outcome σ β) : Outcome σ β :=
  match o.result with
  | .ok a => (next a o.state).after o.events
  | .error e => ⟨.error e, o.state, o.events⟩

def map (f : α → β) (o : Outcome σ α) : Outcome σ β :=
  { result := o.result.map f, state := o.state, events := o.events }

/-- The outcome as seen from a larger state. -/
def lift (put : σ → τ) (o : Outcome σ α) : Outcome τ α :=
  { result := o.result, state := put o.state, events := o.events }

end Outcome

/-- A store with a state of its own. -/
structure Store (σ : Type) where
  /-- The value under a key, if there is one. -/
  get : String → σ → Outcome σ (Option Json)
  /-- Replaces the value under a key. -/
  set : String → Json → σ → Outcome σ Unit

/-- A store that is kept in a part of a larger state. -/
def Store.within {σ τ : Type} (store : Store σ) (part : τ → σ) (put : σ → τ → τ) : Store τ where
  get key t := (store.get key (part t)).lift (put · t)
  set key value t := (store.set key value (part t)).lift (put · t)

/-- What a client does with a store. -/
inductive Action (α : Type) where
  | done (result : Except Error α)
  | get (key : String) (next : Except Error (Option Json) → Action α)
  | set (key : String) (value : Json) (next : Except Error Unit → Action α)
  | emit (event : Event) (next : Action α)

namespace Action

variable {α β σ : Type}

/-- Goes on with the result of an action, unless it is an error. -/
def bind : Action α → (α → Action β) → Action β
  | .done (.ok a), f => f a
  | .done (.error e), _ => .done (.error e)
  | .get key next, f => .get key fun answer => (next answer).bind f
  | .set key value next, f => .set key value fun answer => (next answer).bind f
  | .emit event next, f => .emit event (next.bind f)

def map (f : α → β) (a : Action α) : Action β := a.bind fun x => .done (.ok (f x))

/-- Runs an action against a store. -/
def run (store : Store σ) : Action α → σ → Outcome σ α
  | .done result, s => ⟨result, s, []⟩
  | .get key next, s =>
    let o := store.get key s
    (run store (next o.result) o.state).after o.events
  | .set key value next, s =>
    let o := store.set key value s
    (run store (next o.result) o.state).after o.events
  | .emit event next, s => (run store next s).after [event]

end Action

end CobolDialects.Settings
