import CobolDialects.Proofs.Engine.Opening
import CobolDialects.Proofs.Engine.Unfailing
import CobolDialects.Proofs.FileSystem.Occupied

/-!
# Databases that are found

A store that is opened looks at the database, makes it one with a log and takes part in that log. A
relation that it has found at its first look is the one that it sees from then on, whatever lies
beside the database: no other log is joined than one that was there at first, or that is new.
-/

namespace CobolDialects.Engine

open Attempt Database

variable {e mid after : Engine} {slot : Nat} {c : Connection} {at_ : Location} {db : Database}

/-! ## What is not found -/

/-- If the connection could take part in a log, then there is none, unless the database is empty. -/
def Unjoined (c : Connection) (e : Engine) : Prop :=
  c.Settled ∨ e.isVoid c.file = true ∨
    ∀ at_, c.location = some at_ → e.files.isOccupied (.beside at_ logEnding) = false

theorem Quiet.isVoid (h : e.Quiet after) (n : Nat) : after.isVoid n = e.isVoid n := by
  rw [Engine.isVoid, Engine.isVoid, FileSystem.contentOf, FileSystem.contentOf, FileSystem.node?,
    FileSystem.node?, h.nodes]

theorem Quiet.isOccupied (h : e.Quiet after) (free : e.files.isOccupied at_ = false) :
    after.files.isOccupied at_ = false := by
  refine FileSystem.isOccupied_of_fewer h.fewer h.working (fun n empty => ?_) free
  rwa [FileSystem.contentOf, FileSystem.node?, h.nodes]

theorem settleLog_unjoined (h : e.Sound) (open_ : e.connection? slot = some c)
    (location : c.location = some at_) (fresh : c.log = none) :
    (settleLog slot c at_).Ends e
      (fun _ after => ∀ c', after.connection? slot = some c' → Unjoined c' after)
      fun _ => True := by
  have joins : (joinLog slot c at_).Ends e
      (fun _ after => ∀ c', after.connection? slot = some c' → Unjoined c' after)
      fun _ => True := by
    refine (joinLog_holding h open_ fresh at_).mono_post fun _ after held c' open' => ?_
    obtain ⟨c'', open'', settled⟩ := held.connection
    obtain rfl := Option.some.inj (open'.symm.trans open'')
    exact .inl (settled trivial)
  simp only [settleLog, ends_bind, ends_get]
  split_ifs with occupied void directory asks
  · trivial
  · intro c' open'
    have quiet := quiet_unlink h (.beside at_ logEnding)
    obtain rfl := Option.some.inj (open_.symm.trans (quiet.connection?.symm.trans open'))
    exact .inr (.inl ((quiet.isVoid c.file).trans void))
  · exact joins
  · exact joins
  · intro c' open'
    obtain rfl := Option.some.inj (open_.symm.trans open')
    refine .inr (.inr fun at' same => ?_)
    obtain rfl := Option.some.inj (location.symm.trans same)
    exact Bool.of_not_eq_true occupied

theorem settle_unjoined (h : e.Sound) (open_ : e.connection? slot = some c) :
    (settle slot).Ends e
      (fun _ after => ∀ c', after.connection? slot = some c' → Unjoined c' after)
      fun _ => True := by
  by_cases settled : c.Settled
  · refine (settle_quiet h open_ settled).mono (fun _ after quiet c' open' => ?_) fun _ _ => trivial
    obtain rfl := Option.some.inj (open_.symm.trans (quiet.connection?.symm.trans open'))
    exact .inl settled
  · exact settle_of_unsettled h open_ settled fun at_ mid location fresh quiet =>
      settleLog_unjoined quiet.sound (quiet.connection?.trans open_) location fresh

/-- The connection in the slot has looked at the database. -/
structure Looked (slot : Nat) (db : Database) (c : Connection) (e : Engine) : Prop where
  sound : e.Sound
  connection : e.connection? slot = some c
  seen : e.seen c = .ok db
  unjoined : Unjoined c e

theorem view_looked (h : e.Sound) (open_ : e.connection? slot = some c) :
    (view slot).Ends e (fun db after => db.shape?.isSome → ∃ c, Looked slot db c after)
      fun _ => True := by
  simp only [view, ends_bind]
  refine ((settle_holding h open_).and (settle_unjoined h open_)).mono (fun _ mid settled => ?_)
    fun _ _ => trivial
  obtain ⟨held, unjoined⟩ := settled
  obtain ⟨c', open', -⟩ := held.connection
  simp only [ends_connection, open', ends_get]
  cases seen : mid.seen c' with
  | error error => trivial
  | ok found =>
    simp only
    split_ifs with keeps
    · simp only [ends_bind, ends_set, ends_pure]
      exact fun declared => ⟨_, held.sound.remember open' keeps found,
        connection?_remember open' found, seen_remembering declared seen, unjoined c' open'⟩
    · exact fun _ => ⟨c', held.sound, open', seen, unjoined c' open'⟩

/-! ## Asking for a log -/

/-- The database asks for a log, and there is none yet. -/
structure Asking (slot : Nat) (db : Database) (c : Connection) (at_ : Location) (e : Engine) :
    Prop where
  sound : e.Sound
  connection : e.connection? slot = some c
  location : c.location = some at_
  fresh : c.log = none
  unread : c.cached = none
  supports : c.supportsLog = true
  content : e.content c.file = .database db
  asks : db.logged = true
  free : e.files.isOccupied (.beside at_ logEnding) = false

theorem commitToFile_free {other : Location} (free : e.files.isOccupied other = false)
    (filled : e.files.contentOf c.file ≠ []) (at_ : Location) (db : Database) :
    (commitToFile c at_ db).Ends e (fun _ after => after.files.isOccupied other = false)
      fun _ => True := by
  simp only [commitToFile, ends_bind, ends_get]
  split
  · trivial
  split
  · trivial
  split
  · trivial
  rename_i journal opened found
  split
  · trivial
  exact FileSystem.isOccupied_unlink_opened (by simp [Location.beside]) found filled _ free

/-- A database with a relation is in a file that is not empty, if no log tells of it. -/
theorem content_of_seen (seen : e.seen c = .ok db) (declared : db.shape?.isSome)
    (fresh : c.log = none) (unread : c.cached = none) : e.content c.file = .database db := by
  simp only [Engine.seen, fresh, unread, Content.asDatabase] at seen
  split at seen
  · rename_i other content
    rw [content, Except.ok.inj seen]
  · split_ifs at seen
    rw [← Except.ok.inj seen] at declared
    cases declared
  · cases seen
  · cases seen

/-- Where there is no log, a database that has been found comes to ask for one. -/
theorem Looked.asks (h : Looked slot db c e) (declared : db.shape?.isSome)
    (supports : c.supportsLog = true) (fresh : c.log = none) :
    (commit slot db { db with logged := true }).Ends e
      (fun _ after => ∃ at_, Asking slot { db with logged := true } c at_ after) fun _ => True := by
  have sound := h.sound.connection h.connection
  obtain ⟨location, mutable_⟩ : c.location.isSome ∧ c.immutable = false := by
    simp_all [Connection.supportsLog]
  obtain ⟨at_, location⟩ := Option.isSome_iff_exists.mp location
  have unread : c.cached = none := by
    by_contra read
    have keeps := sound.cached (Option.isSome_iff_ne_none.mpr read)
    simp [mutable_, fresh] at keeps
  have content := content_of_seen h.seen declared fresh unread
  have filled : e.files.contentOf c.file ≠ [] := by
    rw [contentOf_of_database content]
    exact List.cons_ne_nil _ _
  have free : e.files.isOccupied (.beside at_ logEnding) = false := by
    rcases h.unjoined with settled | void | free
    · simp [Connection.Settled, fresh, supports] at settled
    · rw [not_isVoid_of_database content] at void
      cases void
    · exact free at_ location
  have stays : (commit slot db { db with logged := true }).Ends e
      (fun _ after => after.files.isOccupied (.beside at_ logEnding) = false) fun _ => True := by
    simp only [commit, requireWritable, ends_bind, ends_connection, h.connection]
    split
    · trivial
    simp only [ends_pure, h.connection, location, fresh]
    exact commitToFile_free free filled _ _
  refine ((commit_committed h.sound h.connection db _).and stays).mono (fun _ after done => ?_)
    fun _ _ => trivial
  obtain ⟨⟨-, sound, committed⟩, free⟩ := done
  cases committed with
  | toFile _ connection content =>
    exact ⟨at_, sound, connection, location, fresh, unread, supports, content, rfl, free⟩
  | toLog use logged => cases fresh.symm.trans logged

/-! ## Joining a new log -/

/-- Nothing has been written but indexes of logs. -/
def Indexed (e after : Engine) : Prop :=
  ∀ n, after.content n = e.content n ∨ ∃ reach, after.content n = .logIndex reach

theorem Indexed.refl (e : Engine) : Indexed e e := fun _ => .inl rfl

theorem indexed_addNode (e : Engine) (reach mode : Nat) :
    Indexed e (e.setFiles (e.files.addNode ⟨.logIndex reach, mode⟩)) := by
  intro n
  have content := FileSystem.content_addNode e.files ⟨.logIndex reach, mode⟩ n
  split_ifs at content
  · exact .inr ⟨reach, content⟩
  · exact .inl content

theorem indexed_setReach (e : Engine) (index reach : Nat) : Indexed e (e.setReach index reach) := by
  intro n
  by_cases same : index = n
  · subst same
    by_cases there : index < e.files.nodes.length
    · exact .inr ⟨reach, content_setContent there _⟩
    · have nowhere : e.files.node? index = none := List.getElem?_eq_none (Nat.le_of_not_lt there)
      refine .inl ?_
      show (e.setContent index (.logIndex reach)).content index = e.content index
      rw [Engine.content, Engine.setContent, setFiles, FileSystem.node?_setContent, Engine.content,
        nowhere]
      rfl
  · refine .inl ?_
    show (e.setContent index (.logIndex reach)).content n = e.content n
    rw [Engine.content, Engine.setContent, setFiles, FileSystem.node?_setContent_of_ne _ same,
      Engine.content]

theorem openIndex_indexed (c : Connection) (at_ : Location) (log reach : Nat) :
    (openIndex c at_ log reach).Ends e (fun use after => use.log = log ∧ Indexed e after)
      fun _ => True := by
  have adds : (addIndex reach).Ends e (fun _ after => Indexed e after) fun _ => True := by
    simp only [addIndex, ends_bind, ends_get, ends_setFiles, ends_pure]
    exact indexed_addNode e reach _
  simp only [openIndex, ends_bind, ends_get]
  split
  · simp only [ends_bind, ends_pure, true_and]
    exact adds
  split
  · rename_i index opened found
    have same (n : Nat) : (e.setFiles opened).content n = e.content n := by
      split_ifs at found
      exact FileSystem.content_openAt? found n
    simp only [ends_bind, ends_set, ends_pure, true_and]
    split_ifs
    · exact fun n => .inl (same n)
    · exact fun n => (indexed_setReach (e.setFiles opened) index reach n).imp_left
        (·.trans (same n))
  · split
    · simp only [ends_bind, ends_pure, true_and]
      exact adds
    · simp only [ends_bind, ends_pure, true_and]
      exact adds
    · trivial

theorem useLog_indexed (c : Connection) (at_ : Location) (log : Nat) :
    (useLog c at_ log).Ends e (fun use after => use.log = log ∧ Indexed e after) fun _ => True := by
  simp only [useLog, ends_bind, ends_get]
  split
  · exact ⟨rfl, .refl e⟩
  · exact openIndex_indexed c at_ log _

/-- The connection takes part in a log that tells of nothing, beside a database or what has been
written over it. -/
structure Begun (slot : Nat) (db : Database) (c : Connection) (use : LogUse) (e : Engine) :
    Prop where
  connection : e.connection? slot = some { c with log := some use }
  silent : ∀ l, e.content use.log ≠ .log l
  content : e.content c.file = .database db ∨ ∃ reach, e.content c.file = .logIndex reach

theorem joinLog_begun (h : Asking slot db c at_ e) :
    (joinLog slot c at_).Ends e (fun _ after => ∃ use, Begun slot db c use after)
      fun _ => True := by
  simp only [joinLog]
  split_ifs
  swap
  · trivial
  simp only [ends_bind, ends_get]
  split
  · trivial
  split
  · trivial
  rename_i mode _ log opened found
  have file := h.sound.files.opens found
  have sound := h.sound.setFiles file.sound file.le
  have same (n : Nat) : (e.setFiles opened).content n = e.content n :=
    FileSystem.content_openAt? found n
  have empty : (e.content log).shown = [] :=
    (FileSystem.shown_content e.files log).trans (FileSystem.contentOf_openAt? found h.free)
  simp only [ends_bind, ends_setFiles, ends_modify]
  refine ((useLog_joinable sound h.connection h.fresh log).and (useLog_indexed c at_ log)).mono
    (fun use after done => ?_) fun _ _ => trivial
  obtain ⟨join, rfl, indexed⟩ := done
  refine ⟨use, ?_, fun l absurd => ?_, ?_⟩
  · rw [connection?_update, join.connection]
    rfl
  · rcases indexed use.log with old | ⟨reach, index⟩
    · rw [← same, ← old] at empty
      have held : after.content use.log = .log l := absurd
      rw [held] at empty
      cases empty
    · cases index.symm.trans absurd
  · exact (indexed c.file).imp_left fun old => old.trans ((same c.file).trans h.content)

/-- What is seen through a new log is the database. -/
theorem Begun.seen {use : LogUse} (h : Begun slot db c use e) (unread : c.cached = none)
    {other : Database} (seen : e.seen { c with log := some use } = .ok other) : other = db := by
  simp only [Engine.seen, unread, Option.elim] at seen
  split_ifs at seen
  · rcases h.content with content | ⟨reach, content⟩
    · simp only [besideLog, content] at seen
      exact (Except.ok.inj seen).symm
    · simp only [besideLog, content] at seen
      cases seen
  · unfold throughLog at seen
    split at seen
    · rename_i l content
      exact absurd content (h.silent l)
    · cases seen

theorem Asking.quiet (h : Asking slot db c at_ e) (quiet : e.Quiet after) :
    Asking slot db c at_ after :=
  { h with
    sound := quiet.sound
    connection := quiet.connection?.trans h.connection
    content := quiet.content.trans h.content
    free := quiet.isOccupied h.free }

/-- The connection joins a new log, through which it sees the database. -/
theorem Asking.view (h : Asking slot db c at_ e) (declared : db.shape?.isSome) :
    (view slot).Ends e (fun found after => found = db ∧ ∃ c, Looked slot db c after)
      fun _ => True := by
  have unsettled : ¬c.Settled := by simp [Connection.Settled, h.fresh, h.supports]
  have settles : (settle slot).Ends e (fun _ after => ∃ use, Begun slot db c use after)
      fun _ => True := by
    refine settle_of_unsettled h.sound h.connection unsettled fun at' mid location _ quiet => ?_
    obtain rfl := Option.some.inj (h.location.symm.trans location)
    have asking := h.quiet quiet
    have asks : mid.asksForLog c.file = true := by
      simp [asksForLog, asking.content, Content.database?, h.asks]
    simp only [settleLog, ends_bind, ends_get, asking.free, asks, if_true]
    exact joinLog_begun asking
  simp only [Engine.view, ends_bind]
  refine ((settle_holding h.sound h.connection).and settles).mono (fun _ mid settled => ?_)
    fun _ _ => trivial
  obtain ⟨held, use, begun⟩ := settled
  simp only [ends_connection, begun.connection, ends_get]
  cases seen : mid.seen { c with log := some use } with
  | error error => trivial
  | ok found =>
    obtain rfl := begun.seen h.unread seen
    have remembers : c.immutable = true ∨ (some use).isSome = true := .inr rfl
    simp only [if_pos remembers, ends_bind, ends_set, ends_pure]
    exact ⟨trivial, _, held.sound.remember begun.connection remembers found,
      connection?_remember begun.connection found, seen_remembering declared seen, .inl (.inl rfl)⟩

/-! ## Adopting -/

theorem learn_seen (h : e.Sound) (open_ : e.connection? slot = some c) (seen : e.seen c = .ok db)
    (d : Declaration) : (learn slot d).Ends e
      (fun _ after => ∃ c, after.connection? slot = some c ∧ after.seen c = .ok db)
      fun _ => True := by
  obtain ⟨-, known, reopened⟩ := learned_of_open h open_ d
  exact ⟨_, reopened, seen⟩

/-- Where a relation has been found, none is declared. -/
theorem declareTable_keeps (declared : db.shape?.isSome)
    (looks : (view slot).Ends e (fun found after => found = db ∧ ∃ c, Looked slot db c after)
      fun _ => True) :
    (declareTable slot).Ends e
      (fun _ after => ∃ c, after.connection? slot = some c ∧ after.seen c = .ok db)
      fun _ => True := by
  simp only [declareTable, ends_bind]
  refine looks.mono_post ?_
  rintro found mid ⟨rfl, c, looked⟩
  have there : ¬found.relation.isNone = true := by
    have relation : found.relation.isSome := by simpa [shape?] using declared
    simp [Option.isSome_iff_ne_none.mp relation]
  rw [if_neg there]
  exact learn_seen looked.sound looked.connection looked.seen _

/-- The relation that is found at the first look is the one that is seen in the end. -/
theorem adopt_keeps (h : e.Sound) (open_ : e.connection? slot = some c) :
    (adopt slot).Ends e
      (fun _ after => ∃ db, ((view slot).on e).1 = .ok db ∧ (db.shape?.isSome →
        ∃ logged c, after.connection? slot = some c ∧ after.seen c = .ok { db with logged }))
      fun _ => True := by
  simp only [adopt, keepLog, ends_bind]
  refine ((view_looked h open_).and ends_on).mono (fun db mid looks => ?_) fun _ _ => trivial
  obtain ⟨looked, came⟩ := looks
  have first : ((view slot).on e).1 = .ok db := by rw [came]
  by_cases declared : db.shape?.isSome
  · obtain ⟨c, looked⟩ := looked declared
    simp only [ends_connection, looked.connection]
    split
    · rename_i able
      refine (looked.asks declared able.1 (Option.isNone_iff_eq_none.mp able.2)).mono_post ?_
      rintro _ last ⟨at_, asking⟩
      have kept : ({ db with logged := true } : Database).shape?.isSome := declared
      refine (declareTable_keeps kept (asking.view kept)).mono_post ?_
      rintro _ after ⟨c, open', seen⟩
      exact ⟨db, first, fun _ => ⟨true, c, open', seen⟩⟩
    · rename_i unable
      have settled : c.Settled := by
        unfold Connection.Settled
        cases supports : c.supportsLog <;> cases log : c.log <;> simp_all
      have serves : Serves slot db mid := ⟨looked.sound, c, looked.connection, settled,
        fun other seen => Except.ok.inj (seen.symm.trans looked.seen)⟩
      have looks : (view slot).Ends mid
          (fun found after => found = db ∧ ∃ c, Looked slot db c after)
          fun _ => True := by
        refine ((view_serves serves).and (view_looked looked.sound looked.connection)).mono ?_
          fun _ _ => trivial
        rintro found after ⟨⟨rfl, -⟩, again⟩
        exact ⟨rfl, again declared⟩
      refine (declareTable_keeps declared looks).mono_post ?_
      rintro _ after ⟨c, open', seen⟩
      exact ⟨db, first, fun _ => ⟨db.logged, c, open', seen⟩⟩
  · exact .of_forall fun _ _ => .of_forall fun _ _ => .of_forall fun _ _ =>
      ⟨db, first, fun absurd => (declared absurd).elim⟩

/-- What a new connection to the database of a name sees before anything is done with it. -/
def firstLook (name : Path) (e : Engine) : Except Error Database :=
  ((connect name >>= view).on e).1

/-- Opening a store on a database with a relation leaves the relation as it was found. -/
theorem connectAnd_keeps (h : e.Sound) (name : Path) :
    (connectAnd name adopt).Ends e
      (fun opened after => ∃ db, firstLook name e = .ok db ∧ (db.shape?.isSome →
        ∃ logged c, after.connection? opened.1 = some c ∧ after.seen c = .ok { db with logged }))
      fun _ => True := by
  simp only [connectAnd, ends_bind]
  refine ((connect_holding h name).and ends_on).mono
    (fun slot mid connects => ?_) fun _ _ => trivial
  obtain ⟨held, came⟩ := connects
  obtain ⟨c, open_, -⟩ := held.connection
  have first : firstLook name e = ((view slot).on mid).1 := by rw [firstLook, on_bind, came]
  rw [first]
  exact ends_observe ((adopt_keeps held.sound open_).mono (fun _ _ => id) fun _ _ _ => trivial)

end CobolDialects.Engine
