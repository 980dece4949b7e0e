import CobolDialects.Settings.Store
import Mathlib.Tactic.Common

/-!
# Clients of one store

Several clients carry out actions on one store. A call is one step, and between the calls of one
client any number of calls of others may come: a schedule says whose turn it is. What is called and
answered is kept in a history. Each client uses one key, which the history leaves out.
-/

namespace CobolDialects.Settings

/-- A call of a client and its answer. -/
inductive Exchange (ι : Type) where
  | got (client : ι) (answer : Except Error (Option Json))
  | put (client : ι) (value : Json) (answer : Except Error Unit)

namespace Exchange

variable {ι : Type}

/-- Whether the call succeeded. -/
def succeeded : Exchange ι → Bool
  | .got _ answer => answer.isOk
  | .put _ _ answer => answer.isOk

def client : Exchange ι → ι
  | .got client _ | .put client _ _ => client

/-- The client, if it read. -/
def reader? : Exchange ι → Option ι
  | .got client _ => some client
  | .put _ _ _ => none

/-- The client and the value that it wrote, if it wrote one. -/
def write? : Exchange ι → Option (ι × Json)
  | .got _ _ => none
  | .put client value _ => some (client, value)

end Exchange

/-! ## Steps -/

variable {σ ι α : Type}

namespace Action

/-- The action behind the events that come before its next call. -/
def quiet : Action α → Action α
  | .emit _ next => next.quiet
  | a => a

/-- The next call of an action for a client, how the action goes on, and the state behind the call.
None if there is no call left. -/
def step? (client : ι) (store : Store σ) : Action α → σ → Option (Exchange ι × Action α × σ)
  | .done _, _ => none
  | .get key next, s =>
    let o := store.get key s
    some (.got client o.result, next o.result, o.state)
  | .set key value next, s =>
    let o := store.set key value s
    some (.put client value o.result, next o.result, o.state)
  | .emit _ next, s => step? client store next s

theorem step?_quiet (client : ι) (store : Store σ) (a : Action α) (s : σ) :
    a.quiet.step? client store s = a.step? client store s := by
  induction a with
  | done | get | set => rfl
  | emit event next ih => exact ih

/-- An action that is run at once comes to what it comes to when it is run step by step. -/
theorem run_of_step? {client : ι} {store : Store σ} {a next : Action α} {s after : σ}
    {e : Exchange ι} (h : a.step? client store s = some (e, next, after)) :
    (a.run store s).result = (next.run store after).result ∧
      (a.run store s).state = (next.run store after).state := by
  induction a with
  | done => simp [step?] at h
  | get key _ _ =>
    simp only [step?, Option.some.injEq, Prod.mk.injEq] at h
    obtain ⟨-, rfl, rfl⟩ := h
    exact ⟨rfl, rfl⟩
  | set key value _ _ =>
    simp only [step?, Option.some.injEq, Prod.mk.injEq] at h
    obtain ⟨-, rfl, rfl⟩ := h
    exact ⟨rfl, rfl⟩
  | emit event _ ih => exact ih h

end Action

/-- A store, what each client still has to do, and what has been called so far, the first call
first. -/
structure Clients (σ ι α : Type) where
  state : σ
  actions : ι → Action α
  history : List (Exchange ι)

namespace Clients

variable [DecidableEq ι]

/-- One client makes its next call. -/
def advance (store : Store σ) (client : ι) (w : Clients σ ι α) : Clients σ ι α :=
  match (w.actions client).step? client store w.state with
  | none => w
  | some (e, next, after) =>
    ⟨after, fun i => if i = client then next else w.actions i, w.history ++ [e]⟩

/-- Clients make calls in the order of a schedule, each against the store as it is at its turn. -/
def run (stores : Nat → Store σ) : List ι → Clients σ ι α → Clients σ ι α
  | [], w => w
  | client :: rest, w => run (fun n => stores (n + 1)) rest (w.advance (stores 0) client)

/-- Clients make calls in the order of their turns. A turn says against which store its call is, so
that it does not matter which turns come before it. -/
def play {τ : Type} (stores : τ → Store σ) (turns : List (τ × ι)) (w : Clients σ ι α) :
    Clients σ ι α := turns.foldl (fun w turn => w.advance (stores turn.1) turn.2) w

/-- A schedule is a row of turns, each at its place. -/
theorem run_eq_play (stores : Nat → Store σ) (schedule : List ι) (w : Clients σ ι α) :
    run stores schedule w = play stores (schedule.zipIdx.map Prod.swap) w := by
  have shifted (place : Nat) : run (fun n => stores (n + place)) schedule w =
      play stores ((schedule.zipIdx place).map Prod.swap) w := by
    induction schedule generalizing place w with
    | nil => rfl
    | cons client rest ih =>
      have later := ih (w.advance (stores place) client) (place + 1)
      have shift : (fun n => stores (n + (place + 1))) = fun n => stores (n + 1 + place) :=
        funext fun n => congrArg stores (by omega)
      rw [shift] at later
      simpa [run, play] using later
  exact shifted 0

theorem advance_of_step? {store : Store σ} {client : ι} {w : Clients σ ι α} {e : Exchange ι}
    {next : Action α} {after : σ}
    (h : (w.actions client).step? client store w.state = some (e, next, after)) :
    w.advance store client =
      ⟨after, fun i => if i = client then next else w.actions i, w.history ++ [e]⟩ := by
  rw [advance, h]

theorem history_advance (store : Store σ) (client : ι) (w : Clients σ ι α) :
    w.history <+: (w.advance store client).history := by
  unfold advance
  split
  · exact List.prefix_rfl
  · exact List.prefix_append _ _

end Clients

end CobolDialects.Settings
