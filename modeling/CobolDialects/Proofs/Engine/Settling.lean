import CobolDialects.Proofs.Engine.Attempt
import CobolDialects.Proofs.Engine.Sound

/-!
# Settling

A connection that takes part in a log, or cannot, is settled: what it deals with beside its database
from then on changes no file, whether it succeeds or not. One that is not settled yet joins the log
as soon as its database asks for one.
-/

namespace CobolDialects

/-- Whether the connection takes part in a log stays as it is. -/
def Connection.Settled (c : Connection) : Prop := c.log.isSome ∨ c.supportsLog = false

namespace Engine

open Attempt

variable {e : Engine} {slot : Nat} {c : Connection} {at_ : Location}

/-! ## Journals -/

theorem rollBack_quiet (h : e.Sound) (journal : Location) :
    (rollBack c journal).Ends e (fun _ => e.Quiet) e.Quiet := by
  have quiet := Quiet.refl h
  simp only [rollBack, ends_bind, ends_get]
  split_ifs
  · exact quiet
  · exact quiet
  · split
    · exact quiet_unlink h journal
    · exact quiet

theorem settleJournal_quiet (h : e.Sound) :
    (settleJournal c at_).Ends e (fun _ => e.Quiet) e.Quiet := by
  have quiet := Quiet.refl h
  simp only [settleJournal, ends_bind, ends_get]
  split_ifs
  · exact quiet
  · exact quiet_unlink h _
  · exact quiet
  · split
    · exact quiet
    · split_ifs
      · exact rollBack_quiet h _
      · exact quiet
    · exact rollBack_quiet h _
  · exact quiet

/-! ## Logs that cannot be joined -/

theorem settleLog_quiet (h : e.Sound) (unable : c.supportsLog = false) :
    (settleLog slot c at_).Ends e (fun _ => e.Quiet) e.Quiet := by
  have quiet := Quiet.refl h
  have refused : (joinLog slot c at_).Ends e (fun _ => e.Quiet) e.Quiet := by
    simp only [joinLog, unable]
    exact quiet
  simp only [settleLog, ends_bind, ends_get]
  split_ifs
  · exact quiet
  · exact quiet_unlink h _
  · exact refused
  · exact refused
  · exact quiet

theorem settle_quiet (h : e.Sound) (open_ : e.connection? slot = some c) (settled : c.Settled) :
    (settle slot).Ends e (fun _ => e.Quiet) e.Quiet := by
  have quiet := Quiet.refl h
  simp only [settle, ends_bind, ends_connection, open_]
  cases location : c.location with
  | none => exact quiet
  | some at_ =>
    simp only
    split_ifs with done
    · exact quiet
    have unable : c.supportsLog = false := by
      rcases settled with log | unable
      · exact absurd (.inr log) done
      · exact unable
    simp only [ends_bind, ends_get]
    split_ifs
    · exact quiet
    · simp only [ends_bind, ends_get]
      split_ifs
      · exact quiet
      · simp only [ends_bind]
        refine (settleJournal_quiet h).mono (fun _ mid calm => ?_) fun _ => id
        exact (settleLog_quiet calm.sound unable).mono (fun _ _ => calm.trans) fun _ => calm.trans

/-! ## Joining a log -/

/-- The engine has a sound connection in the slot, which is settled if so is told. -/
structure Holding (slot : Nat) (settled : Prop) (e : Engine) : Prop where
  sound : e.Sound
  connection : ∃ c, e.connection? slot = some c ∧ (settled → c.Settled)

theorem Holding.mono {settled settled' : Prop} (h : Holding slot settled e)
    (le : settled' → settled) : Holding slot settled' e where
  sound := h.sound
  connection := h.connection.imp fun _ held => ⟨held.1, fun now => held.2 (le now)⟩

/-- A use of a log that a connection can make its own. -/
structure Joinable (slot : Nat) (c : Connection) (use : LogUse) (e : Engine) : Prop where
  sound : e.Sound
  index : use.index < e.files.nodes.length
  connection : e.connection? slot = some c

theorem addIndex_joinable (h : e.Sound) (open_ : e.connection? slot = some c) (reach : Nat) :
    (addIndex reach).Ends e
      (fun n after => ∀ use : LogUse, use.index = n → Joinable slot c use after) fun _ => True := by
  simp only [addIndex, ends_bind, ends_get, ends_setFiles, ends_pure]
  intro use same
  exact ⟨h.setFiles (h.files.addNode _) (by simp), by simp [same, setFiles], open_⟩

theorem openIndex_joinable (h : e.Sound) (open_ : e.connection? slot = some c)
    (fresh : c.log = none) (log reach : Nat) :
    (openIndex c at_ log reach).Ends e (Joinable slot c) fun _ => True := by
  simp only [openIndex, ends_bind, ends_get]
  split
  · simp only [ends_bind, ends_pure]
    exact (addIndex_joinable h open_ reach).mono_post fun n after join => join _ rfl
  · split
    · rename_i index opened found
      have file : e.files.Opened index opened := by
        split_ifs at found
        exact h.files.opens found
      have sound := h.setFiles file.sound file.le
      simp only [ends_bind, ends_set, ends_pure]
      split_ifs
      · exact ⟨sound, file.lt, open_⟩
      · refine ⟨sound.setReach index reach, ?_, ?_⟩
        · simpa [Engine.setReach, Engine.setContent, setFiles] using file.lt
        · simp [open_, reread, fresh]
    · split
      · simp only [ends_bind, ends_pure]
        exact (addIndex_joinable h open_ reach).mono_post fun n after join => join _ rfl
      · simp only [ends_bind, ends_pure]
        exact (addIndex_joinable h open_ reach).mono_post fun n after join => join _ rfl
      · trivial

theorem useLog_joinable (h : e.Sound) (open_ : e.connection? slot = some c)
    (fresh : c.log = none) (log : Nat) :
    (useLog c at_ log).Ends e (Joinable slot c) fun _ => True := by
  simp only [useLog, ends_bind, ends_get]
  split
  · rename_i use found
    obtain ⟨peer, chosen, uses⟩ := Option.bind_eq_some_iff.mp found
    have there : some peer ∈ e.connections := by
      simpa [openConnections] using List.mem_of_find?_eq_some chosen
    exact ⟨h, (h.connections peer there).index use uses, open_⟩
  · exact openIndex_joinable h open_ fresh log _

theorem joinLog_holding (h : e.Sound) (open_ : e.connection? slot = some c)
    (fresh : c.log = none) (at_ : Location) :
    (joinLog slot c at_).Ends e (fun _ => Holding slot True) fun _ => True := by
  simp only [joinLog]
  split_ifs with supports
  swap
  · trivial
  simp only [ends_bind, ends_get]
  split
  · trivial
  split
  · trivial
  rename_i mode _ log opened found
  have file := h.files.opens found
  simp only [ends_bind, ends_setFiles, ends_modify]
  refine (useLog_joinable (h.setFiles file.sound file.le) open_ fresh log).mono_post ?_
  intro use after join
  have sound := join.sound.connection join.connection
  refine ⟨join.sound.update _ fun c' same => ?_, { c with log := some use }, ?_, fun _ => .inl rfl⟩
  · obtain rfl := Option.some.inj (join.connection.symm.trans same)
    have located : c.location ≠ none := by
      intro nowhere
      simp [Connection.supportsLog, nowhere] at supports
    exact {
      file := sound.file
      index := fun use' same => by cases same; exact join.index
      memory := fun nowhere => absurd nowhere located
      immutable := sound.immutable
      cached := fun _ => .inr rfl }
  · rw [connection?_update, join.connection]
    rfl

/-! ## Settling for good -/

theorem contentOf_of_database {file : Nat} {db : Database}
    (content : e.content file = .database db) :
    e.files.contentOf file = databaseHeader := by
  unfold Engine.content at content
  unfold FileSystem.contentOf
  cases found : e.files.node? file with
  | none => simp [found] at content
  | some node =>
    have held : node.content = .database db := by simpa [found] using content
    simp [held, Content.shown]

theorem not_isVoid_of_database {file : Nat} {db : Database}
    (content : e.content file = .database db) : e.isVoid file = false := by
  rw [isVoid, contentOf_of_database content]
  decide

/-- A database that asks for a log is not empty. -/
theorem not_isVoid_of_asksForLog {file : Nat} (h : e.asksForLog file) : e.isVoid file = false := by
  cases content : e.content file with
  | database db => exact not_isVoid_of_database content
  | bytes | log | logIndex => simp [asksForLog, content, Content.database?] at h

theorem settleLog_holding (h : e.Sound) (open_ : e.connection? slot = some c)
    (fresh : c.log = none) :
    (settleLog slot c at_).Ends e (fun _ => Holding slot (c.Settled ∨ e.asksForLog c.file))
      fun _ => True := by
  have joins : (joinLog slot c at_).Ends e
      (fun _ => Holding slot (c.Settled ∨ e.asksForLog c.file)) fun _ => True :=
    (joinLog_holding h open_ fresh at_).mono_post fun _ _ held => held.mono fun _ => trivial
  have stays (after : Engine) (quiet : e.Quiet after) (silent : e.asksForLog c.file = false) :
      Holding slot (c.Settled ∨ e.asksForLog c.file) after := by
    refine ⟨quiet.sound, c, quiet.connection?.trans open_, fun settled => ?_⟩
    simpa [silent] using settled
  simp only [settleLog, ends_bind, ends_get]
  split_ifs with occupied void directory asks
  · trivial
  · refine stays _ (quiet_unlink h _) ?_
    by_contra asks
    simp [not_isVoid_of_asksForLog (Bool.of_not_eq_false asks)] at void
  · exact joins
  · exact joins
  · exact stays _ (.refl h) (Bool.of_not_eq_true asks)

/-- A connection that is not settled deals with the log last. -/
theorem settle_of_unsettled {post : Unit → Engine → Prop} (h : e.Sound)
    (open_ : e.connection? slot = some c) (unsettled : ¬c.Settled)
    (settles : ∀ at_ mid, c.location = some at_ → c.log = none → e.Quiet mid →
      (settleLog slot c at_).Ends mid post fun _ => True) :
    (settle slot).Ends e post fun _ => True := by
  obtain ⟨fresh, supports⟩ : c.log = none ∧ c.supportsLog = true := by
    simpa [Connection.Settled] using unsettled
  simp only [settle, ends_bind, ends_connection, open_]
  cases location : c.location with
  | none => simp [Connection.supportsLog, location] at supports
  | some at_ =>
    have mutable_ : c.immutable = false := by
      cases immutable : c.immutable with
      | false => rfl
      | true => simp [Connection.supportsLog, immutable] at supports
    simp only [fresh, mutable_]
    simp only [Bool.false_eq_true, Option.isSome_none, or_self, if_false, ends_bind, ends_get]
    split
    · trivial
    simp only [ends_bind, ends_get]
    split
    · trivial
    simp only [ends_bind]
    refine (settleJournal_quiet h).mono (fun _ mid quiet => ?_) fun _ _ => trivial
    exact settles at_ mid location fresh quiet

theorem settle_holding (h : e.Sound) (open_ : e.connection? slot = some c) :
    (settle slot).Ends e (fun _ => Holding slot (c.Settled ∨ e.asksForLog c.file))
      fun _ => True := by
  by_cases settled : c.Settled
  · refine (settle_quiet h open_ settled).mono (fun _ after quiet => ?_) fun _ _ => trivial
    exact ⟨quiet.sound, c, quiet.connection?.trans open_, fun _ => settled⟩
  refine settle_of_unsettled h open_ settled fun at_ mid _ fresh quiet => ?_
  have asks : mid.asksForLog c.file = e.asksForLog c.file := by
    rw [asksForLog, asksForLog, quiet.content]
  rw [← asks]
  exact settleLog_holding quiet.sound (quiet.connection?.trans open_) fresh

end Engine

end CobolDialects
