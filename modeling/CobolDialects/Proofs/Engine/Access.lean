import CobolDialects.Engine.Access
import CobolDialects.Proofs.Engine.Settling

/-!
# What a connection sees

As long as only its own connection is used, a settled connection sees the database that it has
committed last, or fails. What it remembers and what it would find in the files do not come apart.
-/

namespace CobolDialects.Engine

open Attempt

variable {e after : Engine} {slot : Nat} {c : Connection} {db before : Database}

/-- Whatever else may fail, the connection in the slot sees no other database. -/
structure Serves (slot : Nat) (db : Database) (e : Engine) : Prop where
  sound : e.Sound
  connection : ∃ c, e.connection? slot = some c ∧ c.Settled ∧
    ∀ other, e.seen c = .ok other → other = db

theorem Quiet.seen (h : e.Quiet after) : after.seen c = e.seen c := by
  have same : after.content = e.content := funext fun _ => h.content
  unfold Engine.seen besideLog throughLog reach
  rw [same]

theorem Serves.quiet (h : Serves slot db e) (quiet : e.Quiet after) : Serves slot db after := by
  obtain ⟨c, open_, settled, sees⟩ := h.connection
  refine ⟨quiet.sound, c, quiet.connection?.trans open_, settled, fun other seen => ?_⟩
  exact sees other (quiet.seen.symm.trans seen)

/-! ## Reading -/

/-- The engine for which a connection remembers what it has read. -/
def remember (e : Engine) (slot : Nat) (db : Database) : Engine :=
  e.update slot fun c => { c with cached := some db }

theorem Sound.remember (h : e.Sound) (open_ : e.connection? slot = some c)
    (keeps : c.immutable ∨ c.log.isSome) (db : Database) : (e.remember slot db).Sound := by
  refine h.update _ fun c' same => ?_
  obtain rfl := Option.some.inj (open_.symm.trans same)
  exact { h.connection open_ with cached := fun _ => keeps }

theorem connection?_remember (open_ : e.connection? slot = some c) (db : Database) :
    (e.remember slot db).connection? slot = some { c with cached := some db } := by
  rw [remember, connection?_update, open_]
  rfl

/-- What a connection has read it does not see otherwise. -/
theorem eq_of_seen_remembered {other : Database} (seen : e.seen c = .ok db)
    (again : (e.remember slot db).seen { c with cached := some db } = .ok other) : other = db := by
  have files (n : Nat) : (e.remember slot db).content n = e.content n := rfl
  have reaches (index : Nat) : (e.remember slot db).reach index = e.reach index := rfl
  unfold Engine.seen at seen again
  simp only [reaches, besideLog, files] at seen again
  cases log : c.log with
  | none =>
    rw [log] at again
    exact (Except.ok.inj again).symm
  | some use =>
    rw [log] at seen again
    by_cases unreached : e.reach use.index = 0
    · simp only [unreached, if_true] at seen again
      cases content : e.content c.file with
      | database db' =>
        rw [content] at seen again
        exact (Except.ok.inj again).symm.trans (Except.ok.inj seen)
      | bytes | log | logIndex =>
        rw [content] at again
        cases again
    · simp only [unreached, if_false] at again
      exact (Except.ok.inj again).symm

theorem view_serves (h : Serves slot db e) :
    (view slot).Ends e (fun seen after => seen = db ∧ Serves slot db after) (Serves slot db) := by
  obtain ⟨c, open_, settled, sees⟩ := h.connection
  simp only [view, ends_bind]
  refine (settle_quiet h.sound open_ settled).mono (fun _ mid quiet => ?_) fun _ => h.quiet
  have serves := h.quiet quiet
  have stillOpen := quiet.connection?.trans open_
  simp only [ends_connection, stillOpen, ends_get]
  cases seen : mid.seen c with
  | error error => exact serves
  | ok found =>
    obtain rfl := sees found (quiet.seen.symm.trans seen)
    simp only
    split_ifs with keeps
    · simp only [ends_bind, ends_set, ends_pure]
      refine ⟨trivial, serves.sound.remember stillOpen keeps found, _,
        connection?_remember stillOpen found, settled, fun other => eq_of_seen_remembered seen⟩
    · exact ⟨rfl, serves⟩

theorem view_holding (h : e.Sound) (open_ : e.connection? slot = some c) :
    (view slot).Ends e (fun _ => Holding slot (c.Settled ∨ e.asksForLog c.file))
      fun _ => True := by
  simp only [view, ends_bind]
  refine (settle_holding h open_).mono_post fun _ mid held => ?_
  obtain ⟨c', open', settles⟩ := held.connection
  simp only [ends_connection, open', ends_get]
  cases mid.seen c' with
  | error error => trivial
  | ok found =>
    simp only
    split_ifs with keeps
    · simp only [ends_bind, ends_set, ends_pure]
      exact ⟨held.sound.remember open' keeps found, _, connection?_remember open' found, settles⟩
    · exact held

/-! ## Changing -/

/-- A change has come to the file of a database, or to its log. -/
inductive Committed (slot : Nat) (c : Connection) (db : Database) (e : Engine) : Prop where
  | toFile (unlogged : c.log = none) (connection : e.connection? slot = some c)
    (content : e.content c.file = .database db)
  | toLog (use : LogUse) (logged : c.log = some use)
    (connection : e.connection? slot = some { c with cached := some db })
    (reached : e.reach use.index ≠ 0)

/-- What has been committed is what is seen. -/
theorem Committed.seen (h : Committed slot c db e) (unread : c.log = none → c.cached = none) :
    ∃ cached, e.connection? slot = some { c with cached } ∧ e.seen { c with cached } = .ok db := by
  cases h with
  | toFile unlogged connection content =>
    refine ⟨c.cached, connection, ?_⟩
    simp only [Engine.seen, unlogged, unread unlogged, content, Content.asDatabase]
  | toLog use logged connection reached =>
    refine ⟨some db, connection, ?_⟩
    simp only [Engine.seen, logged, reached, if_false]
    rfl

theorem Committed.remembered (h : Committed slot c db e) :
    e.seen { c with cached := some db } = .ok db := by
  cases h with
  | toFile unlogged => simp only [Engine.seen, unlogged]
  | toLog use logged _ reached =>
    simp only [Engine.seen, logged, reached, if_false]
    rfl

theorem commitToFile_committed (h : e.Sound) (open_ : e.connection? slot = some c)
    (unlogged : c.log = none) (at_ : Location) (db : Database) :
    (commitToFile c at_ db).Ends e (fun _ after => after.Sound ∧ Committed slot c db after)
      fun _ => True := by
  simp only [commitToFile, ends_bind, ends_get]
  split
  · trivial
  split
  · trivial
  split
  · trivial
  rename_i journal opened found
  have file := h.files.opens found
  split
  · trivial
  have opened' := h.setFiles file.sound file.le
  have written := opened'.setContent c.file (.database db)
  have quiet := quiet_unlink written (Location.beside at_ journalEnding)
  refine ⟨quiet.sound, .toFile unlogged open_ (quiet.content.trans ?_)⟩
  exact content_setContent (opened'.connection open_).file _

theorem commitToLog_committed (h : e.Sound) (open_ : e.connection? slot = some c) {use : LogUse}
    (logged : c.log = some use) (before db : Database) :
    (commitToLog slot use before db).Ends e (fun _ after => after.Sound ∧ Committed slot c db after)
      fun _ => True := by
  simp only [commitToLog, ends_bind, ends_get]
  split
  · trivial
  simp only [ends_set]
  generalize extendedLog (e.content use.log) (e.reach use.index) before db = log
  generalize e.reach use.index = reach
  have written := h.setContent use.log (.log log)
  have index := (written.connection open_).index use logged
  have sound := written.setReach use.index (reach + 1)
  have reopened : ((e.setContent use.log (.log log)).setReach use.index (reach + 1)).connection?
      slot = some (reread use.index c) := by
    rw [connection?_setReach, connection?_setContent, open_]
    rfl
  have keeps : (reread use.index c).log.isSome := by
    rw [log_reread, logged]
    rfl
  refine ⟨sound.remember reopened (.inr keeps) db, .toLog use logged ?_ fun unreached => ?_⟩
  · exact (connection?_remember reopened db).trans (congrArg some (remembering_reread db))
  · exact Nat.succ_ne_zero reach ((reach_setReach index (reach + 1)).symm.trans unreached)

/-- What a change that succeeds leaves behind. -/
theorem commit_committed (h : e.Sound) (open_ : e.connection? slot = some c)
    (before db : Database) :
    (commit slot before db).Ends e
      (fun _ after => c.readOnly = false ∧ after.Sound ∧ Committed slot c db after)
      fun _ => True := by
  simp only [commit, requireWritable, ends_bind, ends_connection, open_]
  split
  · trivial
  rename_i writable
  replace writable : c.readOnly = false := Bool.of_not_eq_true writable
  simp only [ends_pure, open_]
  split
  · rename_i nowhere
    have unlogged := (h.connection open_).memory nowhere
    have content := content_setContent (h.connection open_).file (.database db)
    exact ⟨writable, h.setContent _ _, .toFile unlogged open_ content⟩
  · rename_i at_ use located logged
    exact (commitToLog_committed h open_ logged before db).mono_post fun _ _ => .intro writable
  · rename_i at_ located unlogged
    exact (commitToFile_committed h open_ unlogged at_ db).mono_post fun _ _ => .intro writable

/-- A change that fails has not begun. -/
theorem commit_fails (slot : Nat) (before db : Database) :
    (commit slot before db).Ends e (fun _ _ => True) (· = e) := by
  simp only [commit, requireWritable, ends_bind, ends_connection]
  cases open_ : e.connection? slot with
  | none => trivial
  | some c =>
    simp only
    split
    · trivial
    simp only [ends_pure, open_]
    split
    · trivial
    · simp only [commitToLog, ends_bind, ends_get]
      split <;> trivial
    · simp only [commitToFile, ends_bind, ends_get]
      split
      · trivial
      split
      · trivial
      split
      · trivial
      split <;> trivial

/-- Whether a change is made does not depend on what it is. -/
theorem commit_blind (slot : Nat) (before db db' : Database) (e : Engine) :
    ((commit slot before db).on e).1 = ((commit slot before db').on e).1 := by
  have got (last : Engine) : (get : Attempt Engine).on last = (.ok last, last) := rfl
  simp only [commit, on_bind]
  rcases (requireWritable slot).on e with ⟨_ | _, mid⟩
  · rfl
  simp only
  rcases (connection slot).on mid with ⟨_ | c, last⟩
  · rfl
  simp only
  split
  · rfl
  · simp only [commitToLog, on_bind, got]
    split <;> rfl
  · simp only [commitToFile, on_bind, got]
    split
    · rfl
    split
    · rfl
    split
    · rfl
    split <;> rfl

/-- The connection sees what it has committed. -/
theorem commit_serves (h : Serves slot before e) (db : Database) :
    (commit slot before db).Ends e
      (fun _ after => Serves slot db after ∧ ∃ c, after.connection? slot = some c ∧
        after.seen c = .ok db)
      (· = e) := by
  obtain ⟨c, open_, settled, -⟩ := h.connection
  refine ((commit_committed h.sound open_ before db).and (commit_fails slot before db)).mono
    (fun _ after done => ?_) fun _ lost => lost.2
  obtain ⟨⟨writable, sound, committed⟩, -⟩ := done
  obtain ⟨cached, reopened, seen⟩ :=
    committed.seen ((h.sound.connection open_).cached_eq_none writable)
  exact ⟨⟨sound, _, reopened, settled, fun other again => Except.ok.inj (again.symm.trans seen)⟩,
    _, reopened, seen⟩

theorem commit_holding (h : e.Sound) (open_ : e.connection? slot = some c)
    (before db : Database) :
    (commit slot before db).Ends e
      (fun _ after => Holding slot c.Settled after ∧
        (c.log = none → after.connection? slot = some c ∧ after.content c.file = .database db))
      fun _ => True := by
  refine (commit_committed h open_ before db).mono_post fun _ after done => ?_
  obtain ⟨-, sound, committed⟩ := done
  cases committed with
  | toFile unlogged connection content =>
    exact ⟨⟨sound, c, connection, id⟩, fun _ => ⟨connection, content⟩⟩
  | toLog use logged connection reached =>
    refine ⟨⟨sound, _, connection, id⟩, fun unlogged => ?_⟩
    rw [logged] at unlogged
    cases unlogged

end CobolDialects.Engine
