import CobolDialects.Proofs.Engine.Statement

/-!
# Why statements fail

Whatever fails below a database is an obstacle. Above it there is only what a statement asks of the
declaration, and what it makes of the rows.
-/

namespace CobolDialects.Engine

open Attempt Database

variable {kind : Error → Prop} {α β : Type} {a : Attempt α} {f : α → Attempt β} {slot : Nat}

/-- Whenever the attempt fails, the error is of some kind. -/
def FailsBy (kind : Error → Prop) (a : Attempt α) : Prop :=
  ∀ e error, (a.on e).1 = .error error → kind error

/-! ## Steps -/

theorem failsBy_pure (x : α) : FailsBy kind (pure x : Attempt α) := nofun

theorem failsBy_get : FailsBy kind (get : Attempt Engine) := nofun

theorem failsBy_set (e : Engine) : FailsBy kind (set e : Attempt PUnit) := nofun

theorem failsBy_modify (g : Engine → Engine) : FailsBy kind (modify g : Attempt PUnit) := nofun

theorem failsBy_throw {error : Error} (h : kind error) :
    FailsBy kind (throw error : Attempt α) := by
  intro e other failed
  cases failed
  exact h

theorem failsBy_ofExcept {result : Except Error α}
    (h : ∀ error, result = .error error → kind error) :
    FailsBy kind (MonadExcept.ofExcept result : Attempt α) := by
  cases result with
  | ok x => exact failsBy_pure x
  | error error => exact failsBy_throw (h error rfl)

theorem FailsBy.bind (h : FailsBy kind a) (next : ∀ x, FailsBy kind (f x)) :
    FailsBy kind (a >>= f) := by
  intro e error failed
  have first := h e
  rw [on_bind] at failed
  generalize a.on e = ended at first failed
  obtain ⟨other | x, mid⟩ := ended
  · obtain rfl : other = error := Except.error.inj failed
    exact first other rfl
  · exact next x mid error failed

theorem failsBy_ite {p : Prop} [Decidable p] {b : Attempt α} (h : FailsBy kind a)
    (h' : FailsBy kind b) : FailsBy kind (if p then a else b) := by
  split
  · exact h
  · exact h'

/-- What is done unless it fails before. -/
theorem failsBy_guard {p : Prop} [Decidable p] {error : Error} {never : PUnit → Attempt α}
    (fault : kind error) (rest : FailsBy kind a) :
    FailsBy kind (if p then throw error >>= never else a) := by
  refine failsBy_ite (fun e other failed => ?_) rest
  cases failed
  exact fault

/-- What is observed of an attempt never fails. -/
theorem failsBy_observe : FailsBy kind a.observe := nofun

section Obstacles

variable (obstacles : ∀ o, kind (.obstacle o))

include obstacles

theorem failsBy_refuse (o : Obstacle) : FailsBy kind (refuse o : Attempt α) :=
  failsBy_throw (obstacles o)

theorem failsBy_connection : FailsBy kind (connection slot) := by
  refine failsBy_get.bind fun e => ?_
  split
  · exact failsBy_pure _
  · exact failsBy_refuse obstacles _

/-! ## Below a database -/

theorem failsBy_rollBack (c : Connection) (journal : Location) :
    FailsBy kind (rollBack c journal) := by
  refine failsBy_get.bind fun e => ?_
  refine failsBy_ite (failsBy_refuse obstacles _) (failsBy_ite (failsBy_refuse obstacles _) ?_)
  split
  · exact failsBy_modify _
  · exact failsBy_refuse obstacles _

theorem failsBy_settleJournal (c : Connection) (at_ : Location) :
    FailsBy kind (settleJournal c at_) := by
  have rolls := failsBy_rollBack obstacles c (Location.beside at_ journalEnding)
  refine failsBy_get.bind fun e => failsBy_ite (failsBy_ite ?_ (failsBy_ite ?_ ?_)) (failsBy_pure _)
  · exact failsBy_ite (failsBy_modify _) (failsBy_pure _)
  · exact failsBy_refuse obstacles _
  · split
    · exact failsBy_refuse obstacles _
    · exact failsBy_ite rolls (failsBy_pure _)
    · exact rolls

theorem failsBy_openIndex (c : Connection) (at_ : Location) (log reach : Nat) :
    FailsBy kind (openIndex c at_ log reach) := by
  have adds : FailsBy kind (addIndex reach) :=
    failsBy_get.bind fun _ => (failsBy_modify _).bind fun _ => failsBy_pure _
  refine failsBy_get.bind fun e => failsBy_ite (adds.bind fun _ => failsBy_pure _) ?_
  split
  · exact (failsBy_set _).bind fun _ => failsBy_pure _
  · split
    · exact adds.bind fun _ => failsBy_pure _
    · exact adds.bind fun _ => failsBy_pure _
    · exact failsBy_refuse obstacles _

theorem failsBy_joinLog (slot : Nat) (c : Connection) (at_ : Location) :
    FailsBy kind (joinLog slot c at_) := by
  have uses (log : Nat) : FailsBy kind (useLog c at_ log) := by
    refine failsBy_get.bind fun e => ?_
    dsimp only
    generalize Option.bind _ _ = use?
    cases use? with
    | some use => exact failsBy_pure _
    | none => exact failsBy_openIndex obstacles c at_ log _
  refine failsBy_guard (obstacles _) (failsBy_get.bind fun e => ?_)
  dsimp only
  split
  · exact failsBy_refuse obstacles _
  split
  · exact failsBy_refuse obstacles _
  · exact (failsBy_modify _).bind fun _ => (uses _).bind fun _ => failsBy_modify _

theorem failsBy_settleLog (slot : Nat) (c : Connection) (at_ : Location) :
    FailsBy kind (settleLog slot c at_) := by
  have joins := failsBy_joinLog obstacles slot c at_
  refine failsBy_get.bind fun e => failsBy_ite (failsBy_ite joins ?_) ?_
  · exact failsBy_ite (failsBy_refuse obstacles _) (failsBy_modify _)
  · exact failsBy_ite joins (failsBy_pure _)

theorem failsBy_settle (slot : Nat) : FailsBy kind (settle slot) := by
  refine (failsBy_connection obstacles).bind fun c => ?_
  cases c.location with
  | none => exact failsBy_pure _
  | some at_ =>
    refine failsBy_ite (failsBy_pure _) (failsBy_get.bind fun e => ?_)
    refine failsBy_guard (obstacles _) (failsBy_get.bind fun e => failsBy_guard (obstacles _) ?_)
    exact (failsBy_settleJournal obstacles c at_).bind fun _ =>
      failsBy_settleLog obstacles slot c at_

theorem kind_of_seen {e : Engine} {c : Connection} {error : Error}
    (seen : e.seen c = .error error) :
    kind error := by
  have asDatabase {content : Content} (failed : content.asDatabase = .error error) :
      kind error := by
    unfold Content.asDatabase at failed
    split at failed
    · cases failed
    · split_ifs at failed
      exact Except.error.inj failed ▸ obstacles _
    · exact Except.error.inj failed ▸ obstacles _
    · exact Except.error.inj failed ▸ obstacles _
  have throughLog {file : Nat} {use : LogUse} (failed : e.throughLog file use = .error error) :
      kind error := by
    unfold Engine.throughLog at failed
    split at failed
    · split at failed
      · exact Except.error.inj failed ▸ obstacles _
      · split_ifs at failed
        exact Except.error.inj failed ▸ obstacles _
    · exact Except.error.inj failed ▸ obstacles _
  have besideLog {file : Nat} {cached : Option Database}
      (failed : e.besideLog file cached = .error error) : kind error := by
    unfold Engine.besideLog at failed
    split at failed
    · cases failed
    · exact Except.error.inj failed ▸ obstacles _
    · exact asDatabase failed
  unfold Engine.seen at seen
  cases logged : c.log with
  | none =>
    cases cached : c.cached with
    | none =>
      rw [logged, cached] at seen
      exact asDatabase seen
    | some db => simp [logged, cached] at seen
  | some use =>
    simp only [logged] at seen
    split_ifs at seen
    · exact besideLog seen
    · cases cached : c.cached with
      | none =>
        rw [cached] at seen
        exact throughLog seen
      | some db => simp [cached] at seen

theorem failsBy_view (slot : Nat) : FailsBy kind (view slot) := by
  refine (failsBy_settle obstacles slot).bind fun _ => (failsBy_connection obstacles).bind fun c =>
    failsBy_get.bind fun e => ?_
  cases seen : e.seen c with
  | error error => exact failsBy_throw (kind_of_seen obstacles seen)
  | ok db => exact failsBy_ite ((failsBy_set _).bind fun _ => failsBy_pure _) (failsBy_pure _)

theorem failsBy_requireWritable (slot : Nat) : FailsBy kind (requireWritable slot) :=
  (failsBy_connection obstacles).bind fun _ =>
    failsBy_ite (failsBy_refuse obstacles _) (failsBy_pure _)

theorem failsBy_commit (slot : Nat) (before after : Database) :
    FailsBy kind (commit slot before after) := by
  refine (failsBy_requireWritable obstacles slot).bind fun _ =>
    (failsBy_connection obstacles).bind fun c => ?_
  split
  · exact failsBy_modify _
  · exact failsBy_get.bind fun e => failsBy_guard (obstacles _) (failsBy_set _)
  · refine failsBy_get.bind fun e => failsBy_guard (obstacles _) ?_
    split
    · exact failsBy_refuse obstacles _
    split
    · exact failsBy_refuse obstacles _
    · exact failsBy_guard (obstacles _) (failsBy_modify _)

end Obstacles

/-! ## Statements -/

/-- A statement that writes fails because of an obstacle, because of what it asks of some
declaration, or because it has nothing to write. -/
theorem failsBy_execute (obstacles : ∀ o, kind (.obstacle o)) {check : Check}
    (asks : ∀ shape error, check shape = .error error → kind error ∧ kind error.retold)
    {write : Database → Except Error Database}
    (writes : ∀ db error, write db = .error error → kind error) (slot : Nat) :
    FailsBy kind (execute slot check write) := by
  have views := failsBy_view obstacles slot
  have learns (d : Declaration) : FailsBy kind (learn slot d) := failsBy_modify _
  have ready := failsBy_requireWritable obstacles slot
  have knows : FailsBy kind (declaration slot) := by
    refine (failsBy_connection obstacles).bind fun c => ?_
    split
    · exact failsBy_pure _
    · exact views.bind fun _ => (learns _).bind fun _ => failsBy_pure _
  have prepares : FailsBy kind (prepare slot true check) := by
    refine knows.bind fun known => ?_
    cases checked : check known.shape with
    | ok =>
      refine ready.bind fun _ => views.bind fun db =>
        failsBy_ite (failsBy_pure _) ((learns _).bind fun _ => ?_)
      cases rechecked : check db.shape? with
      | ok => exact failsBy_pure _
      | error error => exact failsBy_throw (asks _ _ rechecked).2
    | error error =>
      have fault := (asks _ _ checked).1
      have rechecks : FailsBy kind (recheck slot known check error) := by
        refine failsBy_observe.bind fun seen => ?_
        cases seen with
        | error other => exact failsBy_throw fault
        | ok db =>
          exact failsBy_guard fault ((learns _).bind fun _ =>
            failsBy_ofExcept fun _ again => (asks _ _ again).1)
      exact failsBy_guard fault (rechecks.bind fun _ => ready.bind fun _ => views)
  exact prepares.bind fun db => (failsBy_ofExcept (writes db)).bind fun changed =>
    failsBy_commit obstacles slot db changed

end CobolDialects.Engine
