import CobolDialects.CommandLine.Run
import CobolDialects.Proofs.Settings.Operation

/-!
# Stores that are opened and closed

A program opens stores, any number of them, uses each as long as it likes, and closes it; a run of
the command line opens one, uses it and closes it again. What stores there are for that is told by a
supply. One supply follows another one if each turn is answered alike, and then so is each run.
-/

namespace CobolDialects.Settings

open CommandLine

variable {σ τ H α : Type}

/-! ## Stores that answer alike -/

/-- A store answers what another one does as long as their states are related, and they stay so. -/
structure Store.Follows (store : Store σ) (ideal : Store τ) (R : σ → τ → Prop) : Prop where
  get : ∀ {s t} key, R s t → (store.get key s).result = (ideal.get key t).result ∧
    R (store.get key s).state (ideal.get key t).state
  set : ∀ {s t} key value, R s t → (store.set key value s).result = (ideal.set key value t).result ∧
    R (store.set key value s).state (ideal.set key value t).state

theorem Store.Follows.run {store : Store σ} {ideal : Store τ} {R : σ → τ → Prop}
    (h : store.Follows ideal R) (a : Action α) {s : σ} {t : τ} (related : R s t) :
    (a.run store s).result = (a.run ideal t).result ∧
      R (a.run store s).state (a.run ideal t).state := by
  induction a generalizing s t with
  | done result => exact ⟨rfl, related⟩
  | get key next ih =>
    obtain ⟨same, still⟩ := h.get key related
    simp only [Action.run, same]
    exact ih _ still
  | set key value next ih =>
    obtain ⟨same, still⟩ := h.set key value related
    simp only [Action.run, same]
    exact ih _ still
  | emit event next ih => exact ih related

/-- What can be asked of a store that is open. -/
structure Service (σ : Type) where
  /-- The store at a given time. -/
  store : Int → Store σ
  /-- When a key was last written, if the store tells that. -/
  stamp? : Option (String → σ → Except Error (Option Int) × σ)

/-- Carries out the command of an invocation at a time in microseconds. -/
def Service.carryOut (service : Service σ) (time : Nat) (inv : Invocation) (s : σ) :
    Except Report String × σ :=
  let o := (inv.command.action inv.key).run (service.store (time / 1000)) s
  (inv.command.conclude inv.key o.result, o.state)

structure Service.Follows (service : Service σ) (ideal : Service τ) (R : σ → τ → Prop) : Prop where
  store : ∀ time, (service.store time).Follows (ideal.store time) R
  stamp : match service.stamp?, ideal.stamp? with
    | some stamp, some ideal => ∀ {s t} key, R s t →
        (stamp key s).1 = (ideal key t).1 ∧ R (stamp key s).2 (ideal key t).2
    | none, none => True
    | _, _ => False

theorem Service.Follows.carryOut {service : Service σ} {ideal : Service τ} {R : σ → τ → Prop}
    (h : service.Follows ideal R) (time : Nat) (inv : Invocation) {s : σ} {t : τ}
    (related : R s t) :
    (service.carryOut time inv s).1 = (ideal.carryOut time inv t).1 ∧
      R (service.carryOut time inv s).2 (ideal.carryOut time inv t).2 := by
  obtain ⟨same, still⟩ := (h.store (time / 1000)).run (inv.command.action inv.key) related
  exact ⟨congrArg (inv.command.conclude inv.key) same, still⟩

/-! ## Turns -/

/-- What is done next. Stores are numbered in the order in which they are opened. -/
inductive Turn where
  | opening (process : Nat)
  | closing (number : Nat)
  | use (number : Nat) (time : Int) (operation : Operation)
  /-- A store is asked when a key was last written. -/
  | stamp (number : Nat) (key : String)
  | invoke (process time : Nat) (inv : Invocation) (env : Locations.Environment)

/-- Whether the command line, if it is run, is run as told. -/
def Turn.Runs (as : Invocation → Locations.Environment → Prop) : Turn → Prop
  | .invoke _ _ inv env => as inv env
  | _ => True

inductive Turn.Reply where
  | opened (result : Except Error Unit)
  | closed
  | answer (result : Except Error Answer)
  | stamp (result : Except Error (Option Int))
  | conclusion (conclusion : Except Report String)
  /-- There is no such store, or it does not tell what was asked. -/
  | nothing

/-- Where stores come from, and what becomes of the state when they are opened, used and closed. -/
structure Supply (σ H : Type) where
  opening : Nat → σ → Except Error H × σ
  closing : H → σ → σ
  service : H → Service σ
  /-- A process runs a command at a time in microseconds. -/
  invoke : Nat → Nat → Invocation → Locations.Environment → σ → Except Report String × σ

/-- What a turn leads to. A handle is gone when its store is closed. -/
structure Turn.Outcome (σ H : Type) where
  reply : Turn.Reply
  handles : List (Option H)
  state : σ

namespace Supply

def step (supply : Supply σ H) (handles : List (Option H)) (s : σ) : Turn → Turn.Outcome σ H
  | .opening process =>
    match supply.opening process s with
    | (.ok h, s) => ⟨.opened (.ok ()), handles ++ [some h], s⟩
    | (.error e, s) => ⟨.opened (.error e), handles ++ [none], s⟩
  | .closing number =>
    match handles.getD number none with
    | some h => ⟨.closed, handles.set number none, supply.closing h s⟩
    | none => ⟨.nothing, handles, s⟩
  | .use number time operation =>
    match handles.getD number none with
    | some h =>
      let o := operation.action.run ((supply.service h).store time) s
      ⟨.answer o.result, handles, o.state⟩
    | none => ⟨.nothing, handles, s⟩
  | .stamp number key =>
    match (handles.getD number none).bind fun h => (supply.service h).stamp? with
    | some stamp => ⟨.stamp (stamp key s).1, handles, (stamp key s).2⟩
    | none => ⟨.nothing, handles, s⟩
  | .invoke process time inv env =>
    let (conclusion, s) := supply.invoke process time inv env s
    ⟨.conclusion conclusion, handles, s⟩

/-- The replies to turns that are taken one after the other. -/
def run (supply : Supply σ H) : List Turn → List (Option H) → σ → List Turn.Reply
  | [], _, _ => []
  | turn :: turns, handles, s =>
    let o := supply.step handles s turn
    o.reply :: supply.run turns o.handles o.state

/-- The supply of a single store, which is open all the time: opening a store gives that one, and
closing it does nothing. -/
def lasting (service : Service σ) : Supply σ Unit where
  opening _ s := (.ok (), s)
  closing _ s := s
  service _ := service
  invoke _ time inv _ s := service.carryOut time inv s

/-! ## Runs that are answered alike -/

/-- Each turn is answered as by a single store that is open all the time, if the states are related,
and they stay so. The command line is run in some ways only. -/
structure Follows (supply : Supply σ H) (ideal : Service τ)
    (as : Invocation → Locations.Environment → Prop) (R : List (Option H) → σ → τ → Prop) :
    Prop where
  opening : ∀ {handles s t} process, R handles s t →
    ∃ h, (supply.opening process s).1 = .ok h ∧
      R (handles ++ [some h]) (supply.opening process s).2 t
  closing : ∀ {handles s t number h}, R handles s t → handles.getD number none = some h →
    R (handles.set number none) (supply.closing h s) t
  service : ∀ {handles s t number h}, R handles s t → handles.getD number none = some h →
    (supply.service h).Follows ideal (R handles)
  invoke : ∀ {handles s t} process time inv env, as inv env → R handles s t →
    (supply.invoke process time inv env s).1 = (ideal.carryOut time inv t).1 ∧
      R handles (supply.invoke process time inv env s).2 (ideal.carryOut time inv t).2

variable {supply : Supply σ H} {ideal : Service τ} {as : Invocation → Locations.Environment → Prop}
  {R : List (Option H) → σ → τ → Prop} {handles : List (Option H)} {s : σ} {t : τ}

/-- A store that is open all the time follows another one if it answers alike. -/
theorem lasting_follows {service : Service σ} {R : σ → τ → Prop} (h : service.Follows ideal R) :
    (lasting service).Follows ideal as fun _ => R where
  opening _ related := ⟨(), rfl, related⟩
  closing related _ := related
  service _ _ := h
  invoke _ time inv _ _ related := h.carryOut time inv related

/-- Which stores are open, whatever their handles are. -/
def marks (handles : List (Option H)) : List (Option Unit) := handles.map fun h => h.map fun _ => ()

theorem getD_marks (number : Nat) :
    (marks handles).getD number none = (handles.getD number none).map fun _ => () := by
  simp only [marks, List.getD_eq_getElem?_getD, List.getElem?_map]
  cases handles[number]? <;> rfl

theorem mem_of_getD {number : Nat} {h : H} (found : handles.getD number none = some h) :
    some h ∈ handles := by
  rw [List.getD_eq_getElem?_getD] at found
  cases inside : handles[number]? with
  | none => simp [inside] at found
  | some h? =>
    rw [inside, Option.getD_some] at found
    exact found ▸ List.mem_of_getElem? inside

theorem Follows.step (h : supply.Follows ideal as R) (related : R handles s t) {turn : Turn}
    (runs : turn.Runs as) :
    (supply.step handles s turn).reply = ((lasting ideal).step (marks handles) t turn).reply ∧
      ((lasting ideal).step (marks handles) t turn).handles =
        marks (supply.step handles s turn).handles ∧
      R (supply.step handles s turn).handles (supply.step handles s turn).state
        ((lasting ideal).step (marks handles) t turn).state := by
  cases turn with
  | opening process =>
    obtain ⟨handle, opened, still⟩ := h.opening process related
    cases outcome : supply.opening process s with
    | mk result after =>
      rw [outcome] at opened still
      obtain rfl : result = .ok handle := opened
      have more : marks handles ++ [some ()] = marks (handles ++ [some handle]) := by simp [marks]
      simp only [Supply.step, outcome]
      exact ⟨rfl, more, still⟩
  | closing number =>
    simp only [Supply.step, getD_marks]
    cases found : handles.getD number none with
    | none => exact ⟨rfl, rfl, related⟩
    | some handle => exact ⟨rfl, by simp [marks], h.closing related found⟩
  | use number time operation =>
    simp only [Supply.step, getD_marks]
    cases found : handles.getD number none with
    | none => exact ⟨rfl, rfl, related⟩
    | some handle =>
      obtain ⟨same, still⟩ := ((h.service related found).store time).run operation.action related
      exact ⟨congrArg Turn.Reply.answer same, rfl, still⟩
  | stamp number key =>
    simp only [Supply.step, getD_marks]
    cases found : handles.getD number none with
    | none => exact ⟨rfl, rfl, related⟩
    | some handle =>
      have agree := (h.service related found).stamp
      -- Whether a store tells when it was written to does not depend on the store.
      have asked : (lasting ideal).service () = ideal := rfl
      cases own : (supply.service handle).stamp? with
      | none =>
        cases told : ideal.stamp? with
        | none => simpa [own, asked, told] using related
        | some stamp => simp [own, told] at agree
      | some stamp' =>
        cases told : ideal.stamp? with
        | none => simp [own, told] at agree
        | some stamp =>
          simp only [own, told] at agree
          obtain ⟨same, still⟩ := agree key related
          simpa [own, asked, told, same] using still
  | invoke process time inv env =>
    obtain ⟨same, still⟩ := h.invoke process time inv env runs related
    exact ⟨congrArg Turn.Reply.conclusion same, rfl, still⟩

/-- What is answered does not depend on which stores are opened and closed, and when. -/
theorem Follows.run (h : supply.Follows ideal as R) {turns : List Turn}
    (runs : ∀ turn ∈ turns, turn.Runs as) (related : R handles s t) :
    supply.run turns handles s = (lasting ideal).run turns (marks handles) t := by
  induction turns generalizing handles s t with
  | nil => rfl
  | cons turn turns ih =>
    obtain ⟨reply, marked, still⟩ := h.step related (runs turn List.mem_cons_self)
    have rest := ih (fun later there => runs later (List.mem_cons_of_mem _ there)) still
    rw [Supply.run, Supply.run, reply, marked, rest]

end Supply

end CobolDialects.Settings
