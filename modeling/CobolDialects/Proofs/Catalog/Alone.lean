import CobolDialects.Proofs.Catalog.History
import CobolDialects.Proofs.Settings.Separation
import Mathlib.Data.List.Basic
import Mathlib.Data.List.Induction

/-!
# Runs in which nobody else writes

Of a value that only the clients of a run write, what is read is what one of them wrote last. This
is so in every store that keeps a value until it is replaced, and in which a call that fails changes
nothing, or fails with a fault that the run does not meet.
-/

namespace CobolDialects

namespace Settings

/-- The call has failed with a fault. -/
def Exchange.Faulty {ι : Type} (fault : Error → Prop) : Exchange ι → Prop
  | .got _ answer => Action.Faulty fault answer
  | .put _ _ answer => Action.Faulty fault answer

theorem Exchange.not_faulty {ι : Type} {fault : Error → Prop} {e : Exchange ι} (h : e.succeeded) :
    ¬e.Faulty fault := by
  cases e with
  | got client answer =>
    cases answer with
    | ok found => exact id
    | error e => cases h
  | put client value answer =>
    cases answer with
    | ok => exact id
    | error e => cases h

/-- Where no fault is promised there is none. -/
theorem Exchange.not_faulty_false {ι : Type} (e : Exchange ι) : ¬e.Faulty fun _ => False := by
  cases e with
  | got client answer => cases answer <;> exact id
  | put client value answer => cases answer <;> exact id

end Settings

namespace Catalog

open Settings

variable {σ τ ι α : Type} {key : String} {first : Option Json} {landed : Exchange ι → Bool}
  {history : List (Exchange ι)}

/-- A reading call fetches the value, or it fails, but not for the shape of what is there. -/
def Fetches (value? : Option Json) : Except Error (Option Json) → Prop
  | .ok found => found = value?
  | .error e => ∀ key fault, e ≠ .invalidShape key fault

/-- Nobody else writes: what is read is what was written last, or the first value where nothing has
been written, and whatever holds the values keeps its shape. What has been carried out is told by
`landed`; of a write that fails that is not certain. -/
structure Alone (first : Option Json) (landed : Exchange ι → Bool) (history : List (Exchange ι)) :
    Prop where
  carried : ∀ e ∈ history, e.succeeded → landed e
  read : ∀ earlier client answer later, history = earlier ++ .got client answer :: later →
    Fetches (held first (earlier.filter landed)) answer

theorem Alone.of_append {more : List (Exchange ι)} (h : Alone first landed (history ++ more)) :
    Alone first landed history where
  carried e there := h.carried e (List.mem_append_left _ there)
  read earlier client answer later split :=
    h.read earlier client answer (later ++ more) (by rw [split]; simp)

theorem alone_nil : Alone first landed ([] : List (Exchange ι)) where
  carried _ there := by cases there
  read _ _ _ _ split := by simp at split

theorem Alone.append (h : Alone first landed history) {e : Exchange ι}
    (carried : e.succeeded → landed e)
    (read : ∀ client answer, e = .got client answer →
      Fetches (held first (history.filter landed)) answer) :
    Alone first landed (history ++ [e]) where
  carried e' there := by
    rcases List.mem_append.mp there with there | there
    · exact h.carried e' there
    · exact List.mem_singleton.mp there ▸ carried
  read earlier client answer later split := by
    rcases split_concat split with ⟨rfl, same⟩ | ⟨front, split⟩
    · exact read client answer same.symm
    · exact h.read earlier client answer front split

theorem held_append (first : Option Json) (a b : List (Exchange ι)) :
    held first (a ++ b) = held (held first a) b := by
  unfold held
  rw [writes_append]
  rcases List.eq_nil_or_concat (writes b) with none | ⟨front, last, some⟩
  · rw [none, List.append_nil]
    rfl
  · rw [some, List.concat_eq_append, ← List.append_assoc, List.getLast?_concat,
      List.getLast?_concat]

/-! ## Stores that keep a value -/

/-- Under a key the store keeps a value: `holds` ties its state to the value. Whatever is read is
that value, in a store that keeps its shape, and only a set that succeeds replaces it. Nothing of
this is promised behind a fault. -/
structure Steady (stores : τ → Store σ) (key : String) (holds : σ → Option Json → Prop)
    (fault : Error → Prop) : Prop where
  get : ∀ {s value?} (t), holds s value? →
    Fetches value? ((stores t).get key s).result ∧ holds ((stores t).get key s).state value? ∨
      Action.Faulty fault ((stores t).get key s).result
  set : ∀ {s value? value} (t), holds s value? → Storable value →
    holds ((stores t).set key value s).state
        (if ((stores t).set key value s).result.isOk then some value else value?) ∨
      Action.Faulty fault ((stores t).set key value s).result

namespace Steady

variable {stores : τ → Store σ} {holds : σ → Option Json → Prop} {fault : Error → Prop} {s : σ}
  {value? : Option Json}

theorem of_keepsUnder (keeps : ∀ t, KeepsUnder key (stores t) holds fault) :
    Steady stores key holds fault where
  get t kept := by
    rcases (keeps t).get kept with ⟨answer, still⟩ | ⟨e, faulty, failed⟩
    · exact .inl ⟨by rw [answer]; rfl, still⟩
    · exact .inr (by rwa [failed])
  set t kept storable := by
    rcases (keeps t).set kept storable with ⟨answer, still⟩ | ⟨e, faulty, failed⟩
    · exact .inl (by rwa [answer])
    · exact .inr (by rwa [failed])

/-- What a step of a client reads is what is stored, and what is stored behind it is what it wrote,
if it wrote. -/
theorem step (h : Steady stores key holds fault) (kept : holds s value?) (t : τ) (client : ι)
    {a : Action α} (under : a.Under key) :
    a.step? client (stores t) s = none ∨
      ∃ e next after, a.step? client (stores t) s = some (e, next, after) ∧ next.Under key ∧
        ((∀ i answer, e = .got i answer → Fetches value? answer) ∧
          holds after (held value? ([e].filter Exchange.succeeded)) ∨ e.Faulty fault) := by
  induction a with
  | done result => exact .inl rfl
  | get used next =>
    obtain ⟨rfl, under⟩ := under
    refine .inr ⟨_, _, _, rfl, under _, (h.get t kept).imp_left fun ⟨read, still⟩ => ⟨?_, ?_⟩⟩
    · rintro i answer same
      exact (Exchange.got.inj same).2 ▸ read
    · rw [List.filter_singleton]
      cases Exchange.succeeded (.got client ((stores t).get used s).result) <;> exact still
  | set used value next =>
    obtain ⟨rfl, storable, under⟩ := under
    refine .inr ⟨_, _, _, rfl, under _, (h.set t kept storable).imp_left fun still => ⟨?_, ?_⟩⟩
    · rintro i answer same
      cases same
    · rw [List.filter_singleton, Exchange.succeeded]
      cases done : ((stores t).set used value s).result.isOk <;> simpa [done, held] using still
  | emit event next ih => exact ih under

variable [DecidableEq ι]

/-- In every run of clients that use the key and meet no fault, what is read is what was written
last, and only the writes that have succeeded are carried out. -/
theorem alone_play (h : Steady stores key holds fault) (turns : List (τ × ι))
    {actions : ι → Action α}
    (under : ∀ i, (actions i).Under key) (start : holds s first) :
    let w := Clients.play stores turns ⟨s, actions, []⟩
    (∀ e ∈ w.history, ¬e.Faulty fault) → Alone first Exchange.succeeded w.history ∧
      (∀ i, (w.actions i).Under key) ∧
        holds w.state (held first (w.history.filter Exchange.succeeded)) := by
  induction turns using List.reverseRecOn with
  | nil => exact fun _ => ⟨alone_nil, under, start⟩
  | append_singleton turns turn ih =>
    simp only [Clients.play, List.foldl_append, List.foldl_cons, List.foldl_nil] at ih ⊢
    intro sound
    obtain ⟨alone, under, kept⟩ := ih fun e there =>
      sound e ((Clients.history_advance _ turn.2 _).subset there)
    rcases h.step kept turn.1 turn.2 (under turn.2) with
      none | ⟨e, next, after, step, goesOn, ⟨read, still⟩ | faulty⟩
    · rw [Clients.advance, none]
      exact ⟨alone, under, kept⟩
    · rw [Clients.advance_of_step? step]
      refine ⟨alone.append id read, fun i => ?_, ?_⟩
      · simp only
        split_ifs
        · exact goesOn
        · exact under i
      · rw [List.filter_append, held_append]
        exact still
    · refine absurd faulty (sound e ?_)
      rw [Clients.advance_of_step? step]
      exact List.mem_append_right _ List.mem_cons_self

end Steady

end Catalog

end CobolDialects
