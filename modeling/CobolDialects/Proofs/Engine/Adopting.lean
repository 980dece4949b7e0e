import CobolDialects.Proofs.Engine.Joining
import Mathlib.Data.Set.Insert

/-!
# Opening and closing stores on one database

A store that is opened on a database prepares it, which changes nothing if another store has done so
before. One that is closed leaves the log to the others, or brings it to the file of the database if
there are none. Neither changes what the database is.
-/

namespace CobolDialects

/-- A database as a store makes it its own: with a log, and with the store's table unless there is a
relation of its name. -/
def Database.prepared (db : Database) : Database := { db with logged := true }.declare

namespace Engine

open Attempt Database FileSystem

variable {path : Path} {base fs : FileSystem} {at_ : Location} {f : Files} {db changed : Database}
  {e after : Engine} {slots : Set Nat} {knows : Database → Option Declaration → Prop} {slot n : Nat}
  {c : Connection}

/-! ## Databases that have been prepared -/

theorem shape?_declare (db : Database) : db.declare.shape?.isSome := by
  cases relation : db.relation <;> simp [declare, redeclare, shape?, relation]

theorem declare_of_some (declared : db.relation.isNone = false) : db.declare = db := by
  cases relation : db.relation with
  | none => simp [relation] at declared
  | some r => simp only [declare, relation]

theorem logged_declare (db : Database) : db.declare.logged = db.logged := by
  cases relation : db.relation <;> simp [declare, redeclare, relation]

theorem prepared_of_logged (asks : db.logged = true) : db.prepared = db.declare := by
  rw [prepared, ← asks]

/-! ## Adopting a database with a log -/

theorem keepLog_of_view (views : (view slot).Comes e (.ok db) (Attended base at_ f slots knows db))
    (there : slot ∈ slots) :
    (keepLog slot).Comes e (.ok ()) (Attended base at_ f slots knows db) := by
  refine views.bind fun after h => ?_
  obtain ⟨c, open_⟩ := h.opened slot there
  refine (comes_connection open_).bind ?_
  rintro _ rfl
  simp only [(h.partakes slot c open_).1.log, Option.isNone_some, Bool.false_eq_true, and_false,
    if_false]
  exact comes_pure h

theorem declareTable_of_view
    (views : (view slot).Comes e (.ok db) (Attended base at_ f slots knows db))
    (there : slot ∈ slots)
    (learns : knows db.declare (some db.declare.declaration))
    (keeps : ∀ known, knows db known → knows db.declare known) :
    (declareTable slot).Comes e (.ok ()) (Attended base at_ f slots knows db.declare) := by
  refine views.bind fun after h => ?_
  obtain ⟨c, open_⟩ := h.opened slot there
  have learnt (mid : Engine) (ready : Attended base at_ f slots knows db.declare mid) :
      (learn slot db.declare.declaration).Comes mid (.ok ())
        (Attended base at_ f slots knows db.declare) :=
    ⟨_, rfl, ready.learned learns⟩
  cases relation : db.relation.isNone with
  | false =>
    rw [declare_of_some relation] at learnt ⊢
    exact learnt after h
  | true =>
    have asks : db.declare.logged = true := (logged_declare db).trans h.files.asks
    exact (h.commit_comes open_ asks keeps).bind learnt

theorem adopt_of_view (views : (view slot).Comes e (.ok db) (Attended base at_ f slots knows db))
    (there : slot ∈ slots) (learns : knows db.declare (some db.declare.declaration))
    (keeps : ∀ known, knows db known → knows db.declare known) :
    (adopt slot).Comes e (.ok ()) (Attended base at_ f slots knows db.declare) :=
  (keepLog_of_view views there).bind fun _ h =>
    declareTable_of_view (h.view_comes there) there learns keeps

theorem Known.declares (db : Database) : Known db.declare (some db.declare.declaration) :=
  fun _ same => Option.some.inj same ▸ ⟨rfl, shape?_declare db⟩

/-- Nobody knows of a declaration that there is not. -/
theorem Known.declare {known : Option Declaration} (h : Known db known) :
    Known db.declare known := by
  intro d told
  obtain ⟨rfl, declared⟩ := h d told
  exact ⟨by rw [declare_of_some (by simpa [Database.declaration, shape?] using declared)], declared⟩

/-! ## Adopting a database that has no log -/

namespace Lone

/-- The files as they are when the file of a database has been written in the shelter of a
journal. -/
theorem written (h : Lone base at_ slot n c db e) (site : Site path at_ base) {journal : Nat}
    (changed : Database) (opened : e.files.OpenedAt (.beside at_ journalEnding) journal fs) :
    Lone base at_ slot n c changed
        (e.setFiles ((fs.setContent n (.database changed)).unlink (.beside at_ journalEnding))) ∧
      (e.setFiles ((fs.setContent n (.database changed)).unlink
        (.beside at_ journalEnding))).content n = .database changed := by
  have varies := (h.varies.opened journal_mem_places opened).setContent n (.database changed)
  have proper : Location.beside at_ journalEnding ≠ [] := Location.beside_ne_nil
  have entries (x : Location) (ne : x ≠ .beside at_ journalEnding) :
      FileSystem.entry? ((fs.setContent n (.database changed)).unlink (.beside at_ journalEnding))
        x =
        e.files.entry? x := by
    rw [entry?_unlink (varies.plain _ journal_mem_places) proper, if_neg ne]
    exact opened.elsewhere x ne
  have bound := Nat.lt_of_lt_of_le h.bound opened.le
  have content : (e.setFiles ((fs.setContent n (.database changed)).unlink
      (.beside at_ journalEnding))).content n = .database changed := by
    refine Eq.trans ?_ (content_setContent (e := e.setFiles fs) bound (.database changed))
    simp only [Engine.content, FileSystem.node?, setFiles, nodes_unlink, setContent]
  exact ⟨{
    varies := varies.unlink proper journal_mem_places
    database := (entries _ site.ne_journal).trans h.database
    log := (entries _ journal_ne_log.symm).trans h.log
    index := (entries _ journal_ne_index.symm).trans h.index
    journal := by
      show FileSystem.entry? ((fs.setContent n (.database changed)).unlink _) _ = none
      rw [entry?_unlink (varies.plain _ journal_mem_places) proper, if_pos rfl]
    bound := by simpa [setFiles] using bound
    content := by rw [content]; rfl
    own := h.own
    fresh := h.fresh
    alone := h.alone }, content⟩

/-- The change is made in the file. -/
theorem commit_comes (h : Lone base at_ slot n c db e) (site : Site path at_ base) :
    (commit slot db changed).Comes e (.ok ()) fun after =>
      Lone base at_ slot n c changed after ∧ after.content n = .database changed := by
  have spot := site.spot h.varies mem_places
  obtain ⟨mode, permissions⟩ := spot.permissionsAt? h.database h.bound
  obtain ⟨journal, fs, open_, opened⟩ := site.openAt? h.varies journal_mem_places mode
  have moved : e.isMoved c = false := by
    simp [isMoved, h.fresh.location, h.fresh.file, spot.leadsTo h.database]
  have held : e.isHeld c = false := by
    have unused : e.hasLogger c.file = false :=
      List.any_eq_false.mpr fun d there => by simp [h.eq_own there, h.fresh.log]
    rw [isHeld, unused, Bool.and_false]
  have writable := Engine.requireWritable_comes h.own
  rw [h.fresh.writable] at writable
  have written := h.written site changed opened
  refine writable.bind ?_
  rintro _ rfl
  refine (comes_connection h.own).bind ?_
  rintro _ rfl
  simp only [h.fresh.location, h.fresh.log, commitToFile]
  refine comes_get.bind ?_
  rintro _ rfl
  simp only [moved, Bool.false_eq_true, if_false, permissions, open_, held, h.fresh.file]
  exact ⟨_, rfl, written⟩

/-- As long as there is no log, the database is found in its file. -/
theorem view_comes (h : Lone base at_ slot n c db e) (site : Site path at_ base)
    (silent : e.asksForLog n = false) : (view slot).Comes e (.ok db) (· = e) := by
  have spot := site.spot h.varies log_mem_places
  have settles : (settle slot).Comes e (.ok ()) (· = e) := by
    refine h.settle_of_settleLog site (comes_get.bind ?_)
    rintro _ rfl
    simp only [spot.isOccupied_free h.log, h.fresh.file, silent, Bool.false_eq_true, if_false]
    exact comes_pure rfl
  have seen : e.seen c = .ok db := by
    simp only [Engine.seen, h.fresh.log, h.fresh.cached, h.fresh.file, h.content]
  refine settles.bind ?_
  rintro _ rfl
  refine (comes_connection h.own).bind ?_
  rintro _ rfl
  refine comes_get.bind ?_
  rintro _ rfl
  simp only [seen, h.fresh.mutable_, h.fresh.log, Bool.false_eq_true, Option.isSome_none, or_self,
    if_false]
  exact comes_pure rfl

/-- A database that asks for a log gets one at the first look. -/
theorem view_joins (h : Lone base at_ slot n c db e) (site : Site path at_ base)
    (content : e.content n = .database db) (asks : db.logged = true) :
    ∃ f, (view slot).Comes e (.ok db) (Attended base at_ f {slot} Known db) := by
  obtain ⟨f, joins⟩ := h.joinLog_comes site content asks
  have wants : e.asksForLog c.file = true := by
    rw [asksForLog, h.fresh.file, content]
    exact asks
  exact ⟨f, Attended.view_of_settle
    (h.settle_of_settleLog site (settleLog_of_asks wants joins)) rfl⟩

/-- A database that does not ask for a log is made to do so. -/
theorem keepLog_comes (h : Lone base at_ slot n c db e) (site : Site path at_ base)
    (silent : e.asksForLog n = false) :
    (keepLog slot).Comes e (.ok ()) fun after =>
      Lone base at_ slot n c { db with logged := true } after ∧
        after.content n = .database { db with logged := true } := by
  refine (h.view_comes site silent).bind ?_
  rintro _ rfl
  refine (comes_connection h.own).bind ?_
  rintro _ rfl
  simp only [h.fresh.supportsLog, h.fresh.log, Option.isNone_none, and_self, if_true]
  exact h.commit_comes site

theorem adopt_comes (h : Lone base at_ slot n c db e) (site : Site path at_ base) :
    ∃ f, (adopt slot).Comes e (.ok ()) (Attended base at_ f {slot} Known db.prepared) := by
  cases asks : e.asksForLog n with
  | true =>
    obtain ⟨content, logged⟩ : e.content n = .database db ∧ db.logged = true := by
      have said := h.content
      unfold asksForLog at asks
      cases content : e.content n with
      | database found =>
        rw [content] at said asks
        obtain rfl : found = db := Except.ok.inj said
        exact ⟨rfl, asks⟩
      | bytes | log | logIndex => simp [content, Content.database?] at asks
    obtain ⟨f, views⟩ := h.view_joins site content logged
    rw [prepared_of_logged logged]
    exact ⟨f, adopt_of_view views rfl (.declares db) fun _ => .declare⟩
  | false =>
    -- What is rewritten first asks for a log, and so gets one at the second look.
    obtain ⟨after, kept, ready, content⟩ := h.keepLog_comes site asks
    obtain ⟨f, views⟩ := ready.view_joins site content rfl
    have keeps : (keepLog slot).Comes e (.ok ()) (· = after) := ⟨after, kept, rfl⟩
    refine ⟨f, keeps.bind ?_⟩
    rintro _ rfl
    exact declareTable_of_view views rfl (.declares _) fun _ => .declare

end Lone

/-! ## Opening -/

/-- Nobody uses the database at the location, and nothing lies beside its file, if there is one. -/
structure Resting (base : FileSystem) (at_ : Location) (db : Database) (e : Engine) : Prop where
  varies : Varies (places at_) base e.files
  log : e.files.entry? (.beside at_ logEnding) = none
  index : e.files.entry? (.beside at_ indexEnding) = none
  journal : e.files.entry? (.beside at_ journalEnding) = none
  database : e.files.entry? at_ = none ∧ db = .empty ∨ ∃ n < e.files.nodes.length,
    e.files.entry? at_ = some (.file n) ∧ (e.content n).asDatabase = .ok db
  closed : ∀ slot, e.connection? slot = none

theorem fresh_newConnection {a : Address} (ordinary : a.Ordinary) (process file : Nat)
    (at_ : Location) : Fresh at_ file (newConnection a process file (some at_)) where
  file := rfl
  location := rfl
  system := ordinary.standard
  writable := by simp [newConnection, ordinary.makes, ordinary.mutable_]
  mutable_ := ordinary.mutable_
  locks := ordinary.locks
  indexes := ordinary.index
  private_ := by
    have onFile := ordinary.onFile
    simp only [Address.isFileless, Bool.or_eq_false_iff] at onFile
    simp [newConnection, onFile.1.2]
  log := rfl
  known := rfl
  cached := rfl

/-- Connecting opens the file of the database, and makes it if it is missing. -/
theorem connect_comes (site : Site path at_ base) (varies : Varies (places at_) base e.files) :
    ∃ n fs c, e.files.OpenedAt at_ n fs ∧ Fresh at_ n c ∧
      (connect path).Comes e (.ok e.connections.length) (· = (e.setFiles fs).addConnection c) := by
  obtain ⟨a, address, ordinary, leads⟩ := site.address
  obtain ⟨n, fs, open_, opened⟩ := site.openAt? varies mem_places 0
  refine ⟨n, fs, _, opened, fresh_newConnection ordinary e.process n at_, ?_⟩
  have located : (e.files.locate? a.path).filter (fun at_ => at_.path.length ≤ maxFullPath) =
      some at_ := by
    rw [leads _ varies]
    simp [site.short]
  have clean : path.contains 0 = false := by simpa using site.clean
  have mode : (modeFor a).Comes e (.ok 0) (· = e) := by
    rw [modeFor, ordinary.mode]
    exact comes_pure rfl
  have connects : (connectFile path a).Comes e (.ok e.connections.length)
      (· = (e.setFiles fs).addConnection (newConnection a e.process n (some at_))) := by
    refine comes_get.bind ?_
    rintro _ rfl
    simp only [located]
    refine mode.bind ?_
    rintro _ rfl
    simp only [ordinary.makes, decide_true, open_]
    exact ⟨_, rfl, rfl⟩
  simp only [connect, clean, Bool.false_eq_true, if_false, address, ordinary.onFile]
  exact connects

theorem connectAnd_comes {α : Type} {act : Nat → Attempt α} {a : α} {mid : Engine}
    {holds : Engine → Prop} (connects : (connect path).Comes e (.ok slot) (· = mid))
    (acts : (act slot).Comes mid (.ok a) holds) :
    (connectAnd path act).Comes e (.ok (slot, a)) holds := by
  refine connects.bind ?_
  rintro _ rfl
  exact acts.observe.bind fun after held => comes_pure held

theorem connection?_entered (other : Nat) :
    ((e.setFiles fs).addConnection c).connection? other =
      if other = e.connections.length then some c else e.connection? other := by
  show (e.connections ++ [some c]).getD other none = _
  unfold connection?
  rw [List.getD_eq_getElem?_getD, List.getD_eq_getElem?_getD, List.getElem?_append]
  split_ifs with inside same same
  · omega
  · rfl
  · simp [same]
  · have outside : e.connections.length < other := by omega
    rw [List.getElem?_eq_none (by simpa using by omega), List.getElem?_eq_none (by omega)]

theorem Resting.lone (h : Resting base at_ db e) (site : Site path at_ base)
    (opened : e.files.OpenedAt at_ n fs) (fresh : Fresh at_ n c) :
    Lone base at_ e.connections.length n c db ((e.setFiles fs).addConnection c) where
  varies := h.varies.opened mem_places opened
  database := opened.entry
  log := (opened.elsewhere _ site.ne_log.symm).trans h.log
  index := (opened.elsewhere _ site.ne_index.symm).trans h.index
  journal := (opened.elsewhere _ site.ne_journal.symm).trans h.journal
  bound := by
    rcases h.database with ⟨free, -⟩ | ⟨m, bound, file, -⟩
    · exact (opened.new_of_free free).2.1
    · obtain rfl := opened.eq_of_file file
      exact Nat.lt_of_lt_of_le bound opened.le
  content := by
    show ((e.setFiles fs).content n).asDatabase = .ok db
    rcases h.database with ⟨free, rfl⟩ | ⟨m, bound, file, content⟩
    · obtain ⟨-, -, new⟩ := opened.new_of_free free
      rw [Engine.content, setFiles, new]
      rfl
    · obtain rfl := opened.eq_of_file file
      rw [content_opened opened bound, content]
  own := by rw [connection?_entered, if_pos rfl]
  fresh
  alone other d open_ := by
    rw [connection?_entered] at open_
    split_ifs at open_ with same
    · exact same
    · cases (h.closed other).symm.trans open_

theorem Attended.newcomer (h : Attended base at_ f slots knows db e)
    (opened : e.files.OpenedAt at_ n fs)
    (fresh : Fresh at_ n c) :
    Newcomer base at_ f slots knows e.connections.length c db
      ((e.setFiles fs).addConnection c) := by
  obtain rfl := opened.eq_of_file h.files.database
  have own : connection? ((e.setFiles fs).addConnection c) e.connections.length = some c := by
    rw [connection?_entered, if_pos rfl]
  exact {
    files := (h.files.opened mem_places opened h.files.database).congr rfl
    own
    fresh
    others := fun other d ne open_ => by
      rw [connection?_entered, if_neg ne] at open_
      exact h.partakes other d open_
    opened := fun other there => by
      by_cases same : other = e.connections.length
      · exact ⟨c, same ▸ own⟩
      · obtain ⟨d, open_⟩ := h.opened other there
        exact ⟨d, by rw [connection?_entered, if_neg same]; exact open_⟩ }

/-! ## Closing -/

/-- The engine for which a slot is empty. -/
def vacated (e : Engine) (slot : Nat) : Engine :=
  { e with connections := e.connections.set slot none }

theorem connection?_vacated (other : Nat) : (e.vacated slot).connection? other =
    if other = slot then none else e.connection? other := by
  unfold connection? vacated
  rw [List.getD_eq_getElem?_getD, List.getD_eq_getElem?_getD]
  by_cases same : other = slot
  · subst same
    rw [List.getElem?_set_self', if_pos rfl]
    cases e.connections[other]? <;> rfl
  · rw [List.getElem?_set_ne (Ne.symm same), if_neg same]

/-- What the log says comes to the file of the database. -/
theorem Logged.checkpoint (h : Logged base at_ f db e) :
    ∃ done, e.checkpoint? f.database (f.use at_) = some done ∧
      Logged base at_ f db done ∧ done.content f.database = .database db ∧
      done.connections = e.connections := by
  obtain ⟨old, content, logged, told⟩ := h.told
  by_cases unreached : e.reach f.index = 0
  · refine ⟨e, if_pos unreached, h, ?_, rfl⟩
    rw [unreached] at told
    rw [content, told.eq_of_unreached]
  · obtain ⟨l, log, state, whole⟩ := told.resolve_left fun ⟨zero, _⟩ => unreached zero
    have written : (e.setContent f.database (.database db)).content f.database = .database db :=
      content_setContent h.bounds.1 _
    refine ⟨e.setContent f.database (.database db), ?_, ?_, written, rfl⟩
    · simp only [checkpoint?, Files.use, unreached, if_false, log, state, Option.map_some, content,
        Content.database?, isMergeable_of_not_torn whole, if_true]
    · have reach : (e.setContent f.database (.database db)).reach f.index = e.reach f.index := by
        rw [Engine.reach, content_setContent_of_ne h.apart.2.1, Engine.reach]
      exact {
        varies := h.varies.setContent _ _
        database := h.database
        log := h.log
        index := h.index
        journal := h.journal
        bounds := by simpa [Engine.setContent, setFiles] using h.bounds
        apart := h.apart
        told := by
          refine ⟨db, written, h.asks, .inr ⟨l, ?_, by rw [reach, state], whole⟩⟩
          rw [content_setContent_of_ne h.apart.1, log]
        asks := h.asks }

/-- The last connection that leaves brings the log to the file of the database. -/
theorem Logged.leaveLog (h : Logged base at_ f db e) (site : Site path at_ base)
    (partakes : Partakes at_ f db c) (closed : ∀ slot, e.connection? slot = none) :
    Resting base at_ db (e.leaveLog c at_ (f.use at_)) := by
  obtain ⟨done, checkpoint, ready, content, same⟩ := h.checkpoint
  have moved : e.isMoved c = false := by
    have spot := site.spot h.varies mem_places
    simp [isMoved, partakes.location, partakes.file, spot.leadsTo h.database]
  have varies := ready.varies.unlink Location.beside_ne_nil log_mem_places
  have leaves : e.leaveLog c at_ (f.use at_) = done.setFiles
      ((done.files.unlink (.beside at_ logEnding)).unlink (.beside at_ indexEnding)) := by
    simp only [Engine.leaveLog, partakes.file, checkpoint, partakes.writable, moved]
    rfl
  have entries (x : Location) : FileSystem.entry?
      ((done.files.unlink (.beside at_ logEnding)).unlink (.beside at_ indexEnding)) x =
        if x = .beside at_ indexEnding then none
        else if x = .beside at_ logEnding then none else done.files.entry? x := by
    rw [entry?_unlink (varies.plain _ index_mem_places) Location.beside_ne_nil,
      entry?_unlink (ready.varies.plain _ log_mem_places) Location.beside_ne_nil]
  rw [leaves]
  exact {
    varies := varies.unlink Location.beside_ne_nil index_mem_places
    log := (entries _).trans (by rw [if_neg log_ne_index, if_pos rfl])
    index := (entries _).trans (if_pos rfl)
    journal := (entries _).trans
      (by rw [if_neg journal_ne_index, if_neg journal_ne_log, ready.journal])
    database := by
      refine .inr ⟨f.database, ?_, ?_, ?_⟩
      · simpa [setFiles] using ready.bounds.1
      · exact (entries _).trans (by rw [if_neg site.ne_index, if_neg site.ne_log, ready.database])
      · have kept : (done.setFiles ((done.files.unlink (.beside at_ logEnding)).unlink
            (.beside at_ indexEnding))).content f.database = done.content f.database := by
          simp only [Engine.content, FileSystem.node?, setFiles, nodes_unlink]
        rw [kept, content]
        rfl
    closed := fun slot => by
      show done.connections.getD slot none = none
      rw [same]
      exact closed slot }

theorem Attended.vacated (h : Attended base at_ f slots knows db e) :
    Attended base at_ f (slots \ {slot}) knows db (e.vacated slot) where
  files := h.files.congr rfl
  partakes other c open_ := by
    rw [connection?_vacated] at open_
    split_ifs at open_
    exact h.partakes other c open_
  opened other there := by
    obtain ⟨c, open_⟩ := h.opened other there.1
    have ne : other ≠ slot := there.2
    exact ⟨c, by rw [connection?_vacated, if_neg ne, open_]⟩

/-- Whoever closes a connection leaves the log to others, or leaves none. -/
theorem Attended.close (h : Attended base at_ f slots knows db e) (site : Site path at_ base)
    (there : slot ∈ slots) :
    ((∃ other c, (e.close slot).connection? other = some c) ∧
        Attended base at_ f (slots \ {slot}) knows db (e.close slot)) ∨
      slots = {slot} ∧ Resting base at_ db (e.close slot) := by
  obtain ⟨c, open_⟩ := h.opened slot there
  obtain ⟨partakes, -⟩ := h.partakes slot c open_
  have closes : e.close slot = if (e.vacated slot).hasLogger c.file then e.vacated slot
      else (e.vacated slot).leaveLog c at_ (f.use at_) := by
    simp only [Engine.close, open_, partakes.location, partakes.log]
    rfl
  rw [closes]
  cases logger : (e.vacated slot).hasLogger c.file with
  | true =>
    left
    obtain ⟨d, there', -⟩ := List.any_eq_true.mp logger
    obtain ⟨other, open'⟩ := mem_openConnections.mp there'
    exact ⟨⟨other, d, open'⟩, h.vacated⟩
  | false =>
    right
    -- Whatever is open takes part in the log, so nothing is if no connection does.
    have closed (other : Nat) : (e.vacated slot).connection? other = none := by
      refine Option.eq_none_iff_forall_ne_some.mpr fun d open' => ?_
      obtain ⟨old, -⟩ := h.vacated.partakes other d open'
      have inside : d ∈ (e.vacated slot).openConnections := mem_openConnections.mpr ⟨other, open'⟩
      simpa [old.file, partakes.file, old.log] using List.any_eq_false.mp logger d inside
    refine ⟨Set.eq_singleton_iff_unique_mem.mpr ⟨there, fun other inside => ?_⟩,
      h.vacated.files.leaveLog site partakes closed⟩
    by_contra ne
    obtain ⟨d, open'⟩ := h.vacated.opened other ⟨inside, ne⟩
    cases (closed other).symm.trans open'

theorem Shared.close (h : Shared base at_ f slots db e) (site : Site path at_ base)
    (there : slot ∈ slots) :
    ((∃ other c, (e.close slot).connection? other = some c) ∧
        Shared base at_ f (slots \ {slot}) db (e.close slot)) ∨
      slots = {slot} ∧ Resting base at_ db (e.close slot) :=
  ((shared_iff.mp h).close site there).imp_left fun ⟨used, still⟩ => ⟨used, shared_iff.mpr still⟩

/-! ## Opening what is in use -/

/-- Whoever connects to a database that is in use takes part in its log at the first look. -/
theorem Attended.connects (h : Attended base at_ f slots knows db e) (site : Site path at_ base)
    (used : ∃ slot c, e.connection? slot = some c) (new : knows db none) :
    ∃ slot ∉ slots, ∃ mid, (connect path).Comes e (.ok slot) (· = mid) ∧
      (view slot).Comes mid (.ok db) (Attended base at_ f (insert slot slots) knows db) := by
  obtain ⟨n, fs, c, opened, fresh, connects⟩ := connect_comes site h.files.varies
  obtain ⟨other, d, open_⟩ := used
  have old (slot : Nat) (d : Connection) (open_ : e.connection? slot = some d) :
      slot ≠ e.connections.length := by
    rintro rfl
    simp [connection?, List.getD_eq_getElem?_getD] at open_
  have company : ∃ other ≠ e.connections.length, ∃ d,
      ((e.setFiles fs).addConnection c).connection? other = some d :=
    ⟨other, old other d open_, d, by rw [connection?_entered, if_neg (old other d open_), open_]⟩
  have settles := (h.newcomer opened fresh).settle_comes site company new
  refine ⟨_, fun inside => ?_, _, connects, view_of_settle settles (.inl rfl)⟩
  obtain ⟨d, open_⟩ := h.opened _ inside
  exact old _ d open_ rfl

/-- Opening a store on a database that is in use, and declared in whatever shape, leaves it as it
is. -/
theorem Attended.opens (h : Attended base at_ f slots knows db e) (site : Site path at_ base)
    (used : ∃ slot c, e.connection? slot = some c) (declared : db.shape?.isSome)
    (new : knows db none) (learns : knows db (some db.declaration)) :
    ∃ slot ∉ slots, (connectAnd path adopt).Comes e (.ok (slot, ()))
      (Attended base at_ f (insert slot slots) knows db) := by
  obtain ⟨slot, unused, mid, connects, views⟩ := h.connects site used new
  have same : db.declare = db := declare_of_some (by simpa [shape?] using declared)
  have adopts := adopt_of_view views (.inl rfl) (same.symm ▸ learns) fun _ => same.symm ▸ id
  rw [same] at adopts
  exact ⟨slot, unused, connectAnd_comes connects adopts⟩

theorem Resting.opens (h : Resting base at_ db e) (site : Site path at_ base) :
    ∃ slot f, (connectAnd path adopt).Comes e (.ok (slot, ()))
      (Attended base at_ f {slot} Known db.prepared) := by
  obtain ⟨n, fs, c, opened, fresh, connects⟩ := connect_comes site h.varies
  obtain ⟨f, adopts⟩ := (h.lone site opened fresh).adopt_comes site
  exact ⟨_, f, connectAnd_comes connects adopts⟩

/-! ## Opening and closing in turn -/

/-- The stores in some slots use the database, or nobody does. -/
inductive Kept (base : FileSystem) (at_ : Location) (slots : Set Nat) (db : Database) (e : Engine) :
    Prop
  | resting {found : Database} (rests : Resting base at_ found e) (prepared : found.prepared = db)
    (unused : slots = ∅)
  | shared {f : Files} (shared : Shared base at_ f slots db e) (declared : db.shape?.isSome)
    (used : ∃ slot c, e.connection? slot = some c)

theorem Kept.varies (h : Kept base at_ slots db e) : Varies (places at_) base e.files := by
  cases h with
  | resting rests => exact rests.varies
  | shared shared => exact shared.files.varies

theorem Kept.mono {fewer : Set Nat} (h : Kept base at_ slots db e) (le : fewer ⊆ slots) :
    Kept base at_ fewer db e := by
  cases h with
  | resting rests prepared unused =>
    exact .resting rests prepared (Set.subset_empty_iff.mp (unused ▸ le))
  | shared shared declared used =>
    exact .shared (shared_iff.mpr ((shared_iff.mp shared).mono le)) declared used

/-- For which process the engine works makes no difference to what is open. -/
theorem Kept.forProcess (h : Kept base at_ slots db e) (process : Nat) :
    Kept base at_ slots db { e with process } := by
  cases h with
  | resting rests prepared unused =>
    exact .resting ⟨rests.varies, rests.log, rests.index, rests.journal, rests.database,
      rests.closed⟩ prepared unused
  | shared shared declared used =>
    exact .shared ⟨shared.files.congr rfl, shared.joined, shared.opened⟩ declared used

theorem Kept.of_shared (h : Shared base at_ f slots db e) (declared : db.shape?.isSome)
    (there : slot ∈ slots) : Kept base at_ slots db e :=
  .shared h declared ⟨slot, h.opened slot there⟩

/-- A slot that is in use is one of those that share the log. -/
theorem Kept.shares (h : Kept base at_ slots db e) (there : slot ∈ slots) :
    db.shape?.isSome ∧ ∃ f, Shared base at_ f slots db e := by
  cases h with
  | resting _ _ unused =>
    rw [unused] at there
    exact there.elim
  | shared shared declared => exact ⟨declared, _, shared⟩

/-- Whoever opens a store gets a connection of its own. -/
theorem Kept.opens (h : Kept base at_ slots db e) (site : Site path at_ base) :
    ∃ slot ∉ slots,
      (connectAnd path adopt).Comes e (.ok (slot, ())) (Kept base at_ (insert slot slots) db) := by
  cases h with
  | resting rests prepared unused =>
    obtain ⟨slot, f, opens⟩ := rests.opens site
    subst prepared unused
    refine ⟨slot, id, opens.mono fun after attended => ?_⟩
    rw [insert_empty_eq]
    exact .of_shared (shared_iff.mpr attended) (shape?_declare _) rfl
  | shared shared declared used =>
    obtain ⟨slot, unused, opens⟩ := (shared_iff.mp shared).opens site used declared
      (known_none db) fun _ same => Option.some.inj same ▸ ⟨rfl, declared⟩
    exact ⟨slot, unused, opens.mono fun _ attended =>
      .of_shared (shared_iff.mpr attended) declared (.inl rfl)⟩

/-- Closing a store leaves the database as it is. -/
theorem Kept.closes (h : Kept base at_ slots db e) (site : Site path at_ base)
    (there : slot ∈ slots) : Kept base at_ (slots \ {slot}) db (e.close slot) := by
  obtain ⟨declared, f, shared⟩ := h.shares there
  rcases shared.close site there with ⟨used, still⟩ | ⟨last, rests⟩
  · exact .shared still declared used
  · have none_left : slots \ {slot} = ∅ := by
      rw [last]
      exact Set.eq_empty_iff_forall_notMem.mpr fun _ inside => inside.2 inside.1
    -- What is left in the file has its log and its table, and would be prepared in vain.
    refine .resting rests ?_ none_left
    rw [prepared_of_logged shared.files.asks, declare_of_some (by simpa [shape?] using declared)]

end Engine

end CobolDialects
