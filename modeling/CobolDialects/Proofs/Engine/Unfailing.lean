import CobolDialects.Proofs.Engine.Understanding

/-!
# Engines that do not fail

What can keep a statement from being carried out is told by the declaration and the rows of the
database, or it lies below the database. On engines on which nothing below a database fails, a
statement comes to what the database says. Such are the engines on which a database is in memory,
does not change, or has a log that its connection takes part in.
-/

namespace CobolDialects

open Database Attempt

@[simp] theorem Database.shape?_setRows (db : Database) (rows : List Row) :
    (db.setRows rows).shape? = db.shape? := by
  cases relation : db.relation <;> simp [shape?, setRows, relation]

/-- The database with other rows, if the verdict is that it may be changed. -/
def Database.judged (db : Database) (rows : List Row) : Except Error Unit → Database
  | .ok () => db.setRows rows
  | .error _ => db

namespace Engine

variable {verdict : Except Error Unit} {working : Database → Engine → Prop} {e : Engine}
  {slot : Nat} {c : Connection} {db : Database}

/-! ## Statements on engines that do not fail -/

/-- As long as an engine works, a connection sees a database that is declared as a store declares
it, and reading it does not fail. On every change of its rows there is the same verdict: it is made,
or it is refused. The engine works on behind all that. -/
structure Unfailing (slot : Nat) (verdict : Except Error Unit)
    (working : Database → Engine → Prop) : Prop where
  serves : ∀ {db e}, working db e → Serves slot db e
  declared : ∀ {db e}, working db e → db.shape? = some .keyed
  known : ∀ {db e c d}, working db e → e.connection? slot = some c → c.known = some d →
    d.shape = some .keyed
  view : ∀ {db e}, working db e → (view slot).Ends e (fun _ => working db) fun _ => False
  learn : ∀ {db e}, working db e → working db (e.learned slot db.declaration)
  writable : ∀ {db e}, working db e → (requireWritable slot).Comes e (.ok ()) (working db) ∨
    (∃ error, verdict = .error error) ∧ (requireWritable slot).Comes e verdict (working db)
  commit : ∀ {db e} (rows), working db e →
    (commit slot db (db.setRows rows)).Comes e verdict (working (db.judged rows verdict))

namespace Unfailing

theorem view_comes (h : Unfailing slot verdict working) (works : working db e) :
    (Engine.view slot).Comes e (.ok db) (working db) := by
  obtain ⟨_, after, viewed, ⟨rfl, -⟩, still⟩ :=
    (((view_serves (h.serves works)).and (h.view works)).mono_lost fun _ lost => lost.2).comes
  exact ⟨after, viewed, still⟩

theorem declaration_comes (h : Unfailing slot verdict working) (works : working db e) :
    ∃ known, known.shape = some .keyed ∧
      (declaration slot).Comes e (.ok known) (working db) := by
  obtain ⟨c, open_, -⟩ := (h.serves works).connection
  cases known : c.known with
  | some d =>
    refine ⟨d, h.known works open_ known, ?_⟩
    refine (comes_connection open_).bind ?_
    rintro _ rfl
    rw [known]
    exact comes_pure works
  | none =>
    refine ⟨db.declaration, h.declared works, (comes_connection open_).bind ?_⟩
    rintro _ rfl
    rw [known]
    refine (h.view_comes works).bind fun after still => ?_
    exact Comes.bind ⟨_, rfl, h.learn still⟩ fun _ last => comes_pure last

theorem viewChecked_comes (h : Unfailing slot verdict working) (works : working db e)
    (known : Declaration) {check : Check} (checked : check (some .keyed) = .ok ()) :
    (viewChecked slot known check).Comes e (.ok db) (working db) := by
  refine (h.view_comes works).bind fun after still => ?_
  split_ifs
  · exact comes_pure still
  · refine Comes.bind ⟨_, rfl, h.learn still⟩ fun last learnt => ?_
    rw [h.declared works, checked]
    exact comes_pure learnt

theorem prepare_comes (h : Unfailing slot verdict working) (works : working db e) {check : Check}
    (checked : check (some .keyed) = .ok ()) :
    (prepare slot false check).Comes e (.ok db) (working db) := by
  obtain ⟨known, keyed, comes⟩ := h.declaration_comes works
  refine comes.bind fun after still => ?_
  rw [keyed, checked]
  exact h.viewChecked_comes still known checked

/-- Before a statement writes, it may be refused. -/
theorem prepare_to_write_comes (h : Unfailing slot verdict working) (works : working db e)
    {check : Check} (checked : check (some .keyed) = .ok ()) :
    (prepare slot true check).Comes e (.ok db) (working db) ∨
      ∃ error, verdict = .error error ∧
        (prepare slot true check).Comes e (.error error) (working db) := by
  obtain ⟨known, keyed, after, declared, still⟩ := h.declaration_comes works
  have comes : (declaration slot).Comes e (.ok known) (· = after) := ⟨after, declared, rfl⟩
  rcases h.writable still with writable | ⟨⟨error, refused⟩, notWritable⟩
  · refine .inl (comes.bind ?_)
    rintro _ rfl
    rw [keyed, checked]
    exact writable.bind fun _ able => h.viewChecked_comes able known checked
  · refine .inr ⟨error, refused, comes.bind ?_⟩
    rintro _ rfl
    rw [keyed, checked]
    rw [refused] at notWritable
    exact notWritable.bind_error

/-- A statement that reads gives what is in the database. -/
theorem query_comes {α : Type} (h : Unfailing slot verdict working) (works : working db e)
    {check : Check} (checked : check (some .keyed) = .ok ()) (read : Database → Except Error α) :
    (query slot check read).Comes e (read db) (working db) :=
  (h.prepare_comes works checked).bind fun _ still => comes_ofExcept still

/-- A statement that writes rows leaves the database with these rows, unless it is refused. -/
theorem execute_comes (h : Unfailing slot verdict working) (works : working db e) {check : Check}
    (checked : check (some .keyed) = .ok ()) {write : Database → Except Error Database}
    {rows : List Row} (written : write db = .ok (db.setRows rows)) :
    (execute slot check write).Comes e verdict (working (db.judged rows verdict)) := by
  rcases h.prepare_to_write_comes works checked with prepared | ⟨error, refused, prepared⟩
  · refine prepared.bind fun after still => ?_
    have changed : (MonadExcept.ofExcept (write db) : Attempt Database).Comes after
        (.ok (db.setRows rows)) (working db) := written ▸ comes_ofExcept still
    exact changed.bind fun _ able => h.commit rows able
  · rw [refused]
    exact prepared.bind_error

end Unfailing

/-! ## Databases in memory, databases that do not change, and logs -/

/-- Nothing is to be settled any more for the connection, and what it knows of the declaration is
that of a store. -/
structure Able (c : Connection) : Prop where
  settled : c.location = none ∨ c.immutable ∨ c.log.isSome
  known : ∀ d, c.known = some d → d.shape = some .keyed

/-- Whether changes are made through a connection: not if it is for reading only, nor if the index
of its log cannot be written to. -/
def verdictOn (c : Connection) : Except Error Unit :=
  if c.readOnly ∨ c.log.any (!·.writable) then
    .error (.obstacle (.readOnly Obstacle.readOnlyCode))
  else .ok ()

/-- The connection in the slot sees the database of a store. -/
structure Works (slot : Nat) (verdict : Except Error Unit) (db : Database) (e : Engine) :
    Prop where
  sound : e.Sound
  declared : db.shape? = some .keyed
  connection : ∃ c, e.connection? slot = some c ∧ Able c ∧ verdictOn c = verdict ∧
    e.seen c = .ok db

theorem Able.isSettled (h : Able c) : c.Settled := by
  rcases h.settled with nowhere | immutable | logged
  · exact .inr (by simp [Connection.supportsLog, nowhere])
  · exact .inr (by simp [Connection.supportsLog, immutable])
  · exact .inl logged

theorem settle_of_ready (open_ : e.connection? slot = some c)
    (ready : c.location = none ∨ c.immutable ∨ c.log.isSome) :
    (settle slot).Comes e (.ok ()) (· = e) := by
  refine (comes_connection open_).bind ?_
  rintro _ rfl
  cases location : c.location with
  | none => exact comes_pure rfl
  | some at_ =>
    have done := ready.resolve_left (by simp [location])
    simp only [done, if_true]
    exact comes_pure rfl

/-- A declared database stays what a connection sees when the connection remembers it. -/
theorem seen_remembering (declared : db.shape?.isSome) (seen : e.seen c = .ok db) :
    e.seen { c with cached := some db } = .ok db := by
  unfold Engine.seen at seen ⊢
  cases logged : c.log with
  | none => rfl
  | some use =>
    simp only [logged] at seen ⊢
    split_ifs at seen ⊢ with unreached
    · unfold besideLog at seen ⊢
      cases content : e.content c.file with
      | database other =>
        rw [content] at seen
        exact seen
      | bytes b | log | logIndex =>
        rw [content] at seen
        cases cached : c.cached with
        | some other => simp [cached] at seen
        | none =>
          simp only [cached, Content.asDatabase] at seen
          first
            | cases seen
            | split_ifs at seen
              rw [← Except.ok.inj seen] at declared
              cases declared
    · rfl

/-! ## Changes that are permitted, and changes that are refused -/

theorem requireWritable_comes (open_ : e.connection? slot = some c) :
    (requireWritable slot).Comes e
      (if c.readOnly then .error (.obstacle (.readOnly Obstacle.readOnlyCode)) else .ok ())
      (· = e) := by
  refine (comes_connection open_).bind ?_
  rintro _ rfl
  cases c.readOnly with
  | true => exact comes_refuse rfl
  | false => exact comes_pure rfl

theorem commit_of_refused (sound : e.Sound) (open_ : e.connection? slot = some c)
    {error : Error} (refused : verdictOn c = .error error) (before after : Database) :
    (Engine.commit slot before after).Comes e (.error error) (· = e) := by
  unfold verdictOn at refused
  split_ifs at refused with why
  obtain rfl := Except.error.inj refused
  have writable := requireWritable_comes open_
  cases readOnly : c.readOnly with
  | true =>
    rw [readOnly] at writable
    exact writable.bind_error
  | false =>
    rw [readOnly] at writable
    have locked := why.resolve_left (by simp [readOnly])
    cases logged : c.log with
    | none => simp [logged] at locked
    | some use =>
      obtain ⟨at_, location⟩ : ∃ at_, c.location = some at_ := by
        refine Option.ne_none_iff_exists'.mp fun nowhere => ?_
        rw [(sound.connection open_).memory nowhere] at logged
        cases logged
      have unwritable : use.writable = false := by simpa [logged] using locked
      refine writable.bind ?_
      rintro _ rfl
      refine (comes_connection open_).bind ?_
      rintro _ rfl
      simp only [location, logged, commitToLog]
      refine Comes.bind ⟨_, rfl, rfl⟩ ?_
      rintro _ rfl
      simp only [unwritable]
      exact comes_refuse rfl

/-! ## Connections that attend to a database -/

/-- The connection in the slot has nothing to settle any more. It sees the database, and goes on
seeing it once it remembers it. -/
structure Attends (slot : Nat) (c : Connection) (db : Database) (e : Engine) : Prop where
  sound : e.Sound
  connection : e.connection? slot = some c
  ready : c.location = none ∨ c.immutable ∨ c.log.isSome
  seen : e.seen c = .ok db
  remembered : e.seen { c with cached := some db } = .ok db

namespace Attends

theorem view_comes (h : Attends slot c db e) :
    (view slot).Comes e (.ok db) fun after =>
      ∃ cached, Attends slot { c with cached } db after := by
  refine (settle_of_ready h.connection h.ready).bind ?_
  rintro _ rfl
  refine (comes_connection h.connection).bind ?_
  rintro _ rfl
  refine comes_get.bind ?_
  rintro _ rfl
  rw [h.seen]
  by_cases keeps : c.immutable ∨ c.log.isSome
  · simp only [keeps, if_true]
    refine Comes.bind ⟨_, rfl, rfl⟩ ?_
    rintro _ rfl
    exact comes_pure ⟨some db, h.sound.remember h.connection keeps db,
      connection?_remember h.connection db, h.ready, h.remembered, h.remembered⟩
  · simp only [keeps, if_false]
    exact comes_pure ⟨c.cached, h⟩

theorem learned (h : Attends slot c db e) (d : Declaration) :
    Attends slot (if c.sharing then c else { c with known := some d }) db (e.learned slot d) where
  sound := (learned_of_open h.sound h.connection d).1
  connection := by rw [Engine.learned, connection?_update, h.connection, Option.map_some]
  ready := by
    split_ifs
    · exact h.ready
    · exact h.ready
  seen := by
    split_ifs
    · exact h.seen
    · exact h.seen
  remembered := by
    split_ifs
    · exact h.remembered
    · exact h.remembered

theorem commit_comes (h : Attends slot c db e) (permitted : verdictOn c = .ok ())
    (changed : Database) : (commit slot db changed).Comes e (.ok ()) fun after =>
      ∃ cached, Attends slot { c with cached } changed after := by
  have done : (commit slot db changed).Ends e (fun _ _ => True) fun _ => False := by
    unfold verdictOn at permitted
    split_ifs at permitted with allowed
    obtain ⟨writable, logs⟩ := not_or.mp allowed
    simp only [Engine.commit, requireWritable, ends_bind, ends_connection, h.connection,
      if_neg writable, ends_pure]
    split
    · trivial
    · rename_i at_ use location logged
      have writes : use.writable = true := by simpa [logged] using logs
      simp only [commitToLog, ends_bind, ends_get, writes]
      trivial
    · rename_i at_ location unlogged
      rcases h.ready with nowhere | immutable | logged
      · cases location.symm.trans nowhere
      · exact absurd ((h.sound.connection h.connection).immutable immutable) writable
      · simp [unlogged] at logged
  obtain ⟨_, after, committed, ⟨writable, sound, change⟩, -⟩ :=
    (((commit_committed h.sound h.connection db changed).and done).mono_lost
      fun _ lost => lost.2).comes
  obtain ⟨cached, reopened, seen⟩ :=
    change.seen ((h.sound.connection h.connection).cached_eq_none writable)
  exact ⟨after, committed, cached, sound, reopened, h.ready, seen, change.remembered⟩

end Attends

/-! ## Databases of stores -/

namespace Works

theorem attends (h : Works slot verdict db e) : ∃ c, Attends slot c db e ∧ Able c ∧
    verdictOn c = verdict := by
  obtain ⟨c, open_, able, judged, seen⟩ := h.connection
  have declared : db.shape?.isSome := h.declared ▸ rfl
  exact ⟨c, ⟨h.sound, open_, able.settled, seen, seen_remembering declared seen⟩, able, judged⟩

theorem of_attends (h : Attends slot c db e) (declared : db.shape? = some .keyed)
    (known : ∀ d, c.known = some d → d.shape = some .keyed) (judged : verdictOn c = verdict) :
    Works slot verdict db e :=
  ⟨h.sound, declared, c, h.connection, ⟨h.ready, known⟩, judged, h.seen⟩

theorem view (h : Works slot verdict db e) :
    (Engine.view slot).Ends e (fun _ => Works slot verdict db) fun _ => False := by
  obtain ⟨c, attends, able, judged⟩ := h.attends
  obtain ⟨after, viewed, cached, still⟩ := attends.view_comes
  unfold Attempt.Ends
  rw [viewed]
  exact of_attends still h.declared able.known judged

theorem learn (h : Works slot verdict db e) :
    Works slot verdict db (e.learned slot db.declaration) := by
  obtain ⟨c, attends, able, judged⟩ := h.attends
  have learnt := attends.learned db.declaration
  split_ifs at learnt
  · exact of_attends learnt h.declared able.known judged
  · refine of_attends learnt h.declared (fun d same => ?_) judged
    rw [← Option.some.inj same]
    exact h.declared

theorem requireWritable (h : Works slot verdict db e) :
    (requireWritable slot).Comes e (.ok ()) (Works slot verdict db) ∨
      (∃ error, verdict = .error error) ∧
        (requireWritable slot).Comes e verdict (Works slot verdict db) := by
  obtain ⟨c, open_, -, judged, -⟩ := h.connection
  have writable := requireWritable_comes open_
  cases readOnly : c.readOnly with
  | false =>
    rw [readOnly] at writable
    exact .inl (writable.mono fun _ same => same ▸ h)
  | true =>
    rw [readOnly] at writable
    rw [verdictOn, if_pos (.inl readOnly)] at judged
    refine .inr ⟨⟨_, judged.symm⟩, ?_⟩
    rw [← judged] at h ⊢
    exact writable.mono fun _ same => same ▸ h

theorem commit (h : Works slot verdict db e) (rows : List Row) :
    (Engine.commit slot db (db.setRows rows)).Comes e verdict
      (Works slot verdict (db.judged rows verdict)) := by
  obtain ⟨c, attends, able, judged⟩ := h.attends
  cases verdict with
  | ok =>
    refine (attends.commit_comes judged (db.setRows rows)).mono fun after ⟨cached, still⟩ => ?_
    exact of_attends still ((shape?_setRows db rows).trans h.declared) able.known judged
  | error error =>
    have refused := commit_of_refused h.sound attends.connection judged db (db.setRows rows)
    exact refused.mono fun _ same => same ▸ h

end Works

theorem unfailing_works (slot : Nat) (verdict : Except Error Unit) :
    Unfailing slot verdict (Works slot verdict) where
  serves h := by
    obtain ⟨c, open_, able, -, seen⟩ := h.connection
    exact ⟨h.sound, c, open_, able.isSettled, fun other again =>
      (Except.ok.inj (seen.symm.trans again)).symm⟩
  declared h := h.declared
  known h open_ known := by
    obtain ⟨c, open', able, -⟩ := h.connection
    obtain rfl := Option.some.inj (open_.symm.trans open')
    exact able.known _ known
  view h := h.view
  learn h := h.learn
  writable h := h.requireWritable
  commit rows h := h.commit rows

/-- Such is the engine on which a store has been opened whose connection locks its file and sees the
table of a store. -/
theorem works_of_holding (held : Holding slot True e) (open_ : e.connection? slot = some c)
    (locks : c.locksFile) (known : ∀ d, c.known = some d → d.shape = some .keyed)
    (declared : db.shape? = some .keyed) (seen : e.seen c = .ok db) :
    Works slot (verdictOn c) db e := by
  obtain ⟨c', open', settled⟩ := held.connection
  obtain rfl := Option.some.inj (open_.symm.trans open')
  refine ⟨held.sound, declared, c, open_, ⟨?_, known⟩, rfl, seen⟩
  rcases settled trivial with logged | unsupported
  · exact .inr (.inr logged)
  · cases location : c.location with
    | none => exact .inl rfl
    | some at_ =>
      have immutable : c.immutable = true := by
        simpa [Connection.supportsLog, location, locks] using unsupported
      exact .inr (.inl immutable)

/-- An engine with one connection, to a database in memory. -/
def inMemory (db : Database) : Engine :=
  (onFiles (FileSystem.empty.addNode ⟨.database db, FileSystem.privateMode⟩)).addConnection
    { process := 0, file := 0, location := none, system := .standard, readOnly := false
      immutable := false, lockless := false, indexReadOnly := false, sharing := false
      log := none, known := none, cached := none }

/-- For every database of a store there is an engine with a connection that sees it. -/
theorem works_inMemory (declared : db.shape? = some .keyed) :
    Works 0 (.ok ()) db (inMemory db) := by
  have files := FileSystem.sound_empty.addNode ⟨.database db, FileSystem.privateMode⟩
  refine ⟨(sound_onFiles files).addConnection ?_, declared, _, rfl, ?_, rfl, rfl⟩
  · exact {
      file := Nat.zero_lt_one
      index := fun use absurd => by cases absurd
      memory := fun _ => rfl
      immutable := fun absurd => by cases absurd
      cached := fun absurd => by cases absurd }
  · exact ⟨.inl rfl, fun d absurd => by cases absurd⟩

end Engine

end CobolDialects
