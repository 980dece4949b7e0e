import CobolDialects.Proofs.Engine.Sharing

/-!
# Joining a log

A connection joins the log of its database when it first looks at it: the log that others take part
in, or a new one if there are none. Either way it is among those who share the log from then on.
-/

namespace CobolDialects.Engine

open Attempt Database FileSystem

variable {path : Path} {base fs : FileSystem} {at_ x : Location} {f : Files}
  {db changed : Database} {e after : Engine} {slots : Set Nat}
  {knows : Database → Option Declaration → Prop} {slot n : Nat} {c : Connection}
  {use : LogUse} {holds : Engine → Prop} {result : Except Error Unit}

theorem mem_openConnections {d : Connection} :
    d ∈ e.openConnections ↔ ∃ slot, e.connection? slot = some d := by
  rw [← mem_connections]
  simp [openConnections]

/-! ## Files that have been opened -/

theorem content_opened (open_ : e.files.OpenedAt x n fs) {m : Nat} (lt : m < e.files.nodes.length) :
    (e.setFiles fs).content m = e.content m := by
  rw [Engine.content, setFiles, open_.content m lt, Engine.content]

/-- Opening a file that is there changes nothing of what the files say. -/
theorem Logged.opened (h : Logged base at_ f db e) (place : x ∈ places at_)
    (open_ : e.files.OpenedAt x n fs) (there : e.files.entry? x = some (.file n)) :
    Logged base at_ f db (e.setFiles fs) := by
  obtain ⟨old, content, logged, told⟩ := h.told
  have entries (y : Location) : fs.entry? y = e.files.entry? y := by
    by_cases same : y = x
    · rw [same, open_.entry, there]
    · exact open_.elsewhere y same
  obtain ⟨database, log, index⟩ := h.bounds
  have reach : (e.setFiles fs).reach f.index = e.reach f.index := by
    rw [Engine.reach, content_opened open_ index, Engine.reach]
  exact {
    varies := h.varies.opened place open_
    database := (entries _).trans h.database
    log := (entries _).trans h.log
    index := (entries _).trans h.index
    journal := (entries _).trans h.journal
    bounds := ⟨Nat.lt_of_lt_of_le database open_.le, Nat.lt_of_lt_of_le log open_.le,
      Nat.lt_of_lt_of_le index open_.le⟩
    apart := h.apart
    told := ⟨old, by rw [content_opened open_ database, content], logged, by
      rwa [content_opened open_ log, reach]⟩
    asks := h.asks }

/-! ## Settling -/

/-- A connection that has not looked at its database yet. -/
structure Fresh (at_ : Location) (file : Nat) (c : Connection) : Prop
    extends Regular at_ file c where
  log : c.log = none
  known : c.known = none
  cached : c.cached = none

theorem Regular.supportsLog (h : Regular at_ n c) : c.supportsLog = true := by
  simp [Connection.supportsLog, Connection.locksFile, h.location, h.mutable_, h.locks, h.system]

/-- Where no journal is left, a fresh connection has only a log to settle. -/
theorem settle_of_settleLog (open_ : e.connection? slot = some c) (fresh : Fresh at_ n c)
    (standard : ∀ d ∈ e.openConnections, d.system = .standard)
    (free : e.files.isOccupied (at_.beside journalEnding) = false)
    (h : (settleLog slot c at_).Comes e result holds) : (settle slot).Comes e result holds := by
  have notBarred : e.isBarred c = false := by
    rw [isBarred, Bool.and_eq_false_iff]
    refine .inr (List.any_eq_false.mpr fun d there => ?_)
    simp [standard d there, fresh.system]
  have noJournal : (settleJournal c at_).Comes e (.ok ()) (· = e) := by
    refine comes_get.bind ?_
    rintro _ rfl
    rw [if_neg (by simp [free])]
    exact comes_pure rfl
  refine (comes_connection open_).bind ?_
  rintro _ rfl
  rw [fresh.location]
  simp only [fresh.mutable_, fresh.log, Bool.false_eq_true, Option.isSome_none, or_self, if_false]
  refine comes_get.bind ?_
  rintro _ rfl
  rw [if_neg (by simp [notBarred])]
  refine comes_get.bind ?_
  rintro _ rfl
  rw [if_neg (by simp [fresh.system])]
  refine noJournal.bind ?_
  rintro _ rfl
  exact h

theorem settleLog_of_asks (asks : e.asksForLog c.file = true)
    (h : (joinLog slot c at_).Comes e result holds) :
    (settleLog slot c at_).Comes e result holds := by
  refine comes_get.bind ?_
  rintro _ rfl
  simp only [not_isVoid_of_asksForLog asks, asks, Bool.false_eq_true, not_false_iff, if_true,
    ite_self]
  exact h

/-- The log is opened, and used as can be found out then. -/
theorem joinLog_of_useLog {mode : Nat} {mid : Engine → Prop} (supports : c.supportsLog = true)
    (permissions : e.files.permissionsAt? at_.path = some mode)
    (open_ : e.files.openAt? (.beside at_ logEnding) true mode = some (n, fs))
    (uses : (useLog c at_ n).Comes (e.setFiles fs) (.ok use) mid) :
    (joinLog slot c at_).Comes e (.ok ())
      fun after => ∃ before, mid before ∧
        after = before.update slot fun c => { c with log := some use } := by
  simp only [joinLog, supports, not_true, if_false]
  refine comes_get.bind ?_
  rintro _ rfl
  simp only [permissions, open_]
  refine Comes.bind ⟨_, rfl, rfl⟩ ?_
  rintro _ rfl
  exact uses.bind fun before found => ⟨_, rfl, before, found, rfl⟩

/-- The index is opened, and made anew unless another process uses it. -/
theorem openIndex_comes (regular : Regular at_ n c) (site : Site path at_ base)
    (varies : Varies (places at_) base e.files) (log reach : Nat) :
    ∃ index fs, e.files.OpenedAt (.beside at_ indexEnding) index fs ∧
      (openIndex c at_ log reach).Comes e (.ok ⟨log, index, some (.beside at_ indexEnding), true⟩)
        (· = if (e.setFiles fs).isForeign c index then e.setFiles fs
          else (e.setFiles fs).setReach index reach) := by
  obtain ⟨index, fs, open_, opened⟩ := site.openAt? varies index_mem_places
    (((e.files.node? c.file).map fun node => FileSystem.permissions node.mode).getD 0)
  refine ⟨index, fs, opened, comes_get.bind ?_⟩
  rintro _ rfl
  simp only [regular.system, regular.indexes, reduceCtorEq, Bool.false_eq_true, if_false, open_]
  exact Comes.bind ⟨_, rfl, rfl⟩ fun after same => ⟨after, rfl, same.symm⟩

/-! ## Joining others -/

/-- A connection has come to a database whose log the others take part in. -/
structure Newcomer (base : FileSystem) (at_ : Location) (f : Files) (slots : Set Nat)
    (knows : Database → Option Declaration → Prop) (slot : Nat) (c : Connection) (db : Database)
    (e : Engine) : Prop where
  files : Logged base at_ f db e
  own : e.connection? slot = some c
  fresh : Fresh at_ f.database c
  others : ∀ other d, other ≠ slot → e.connection? other = some d →
    Partakes at_ f db d ∧ knows db d.known
  opened : ∀ other ∈ slots, ∃ d, e.connection? other = some d

namespace Newcomer

theorem setFiles (h : Newcomer base at_ f slots knows slot c db e)
    (files : Logged base at_ f db (e.setFiles fs)) :
    Newcomer base at_ f slots knows slot c db (e.setFiles fs) :=
  { h with files }

theorem joins (h : Newcomer base at_ f slots knows slot c db e) (new : knows db none) :
    Attended base at_ f (insert slot slots) knows db
      (e.update slot fun c => { c with log := some (f.use at_) }) where
  files := h.files.congr rfl
  partakes other d there := by
    rw [connection?_update_eq] at there
    split_ifs at there with same
    · subst same
      rw [h.own] at there
      obtain rfl := Option.some.inj there
      refine ⟨{ h.fresh with
        log := rfl
        cached := fun seen cached => by cases h.fresh.cached.symm.trans cached }, ?_⟩
      exact h.fresh.known ▸ new
    · exact h.others other d (Ne.symm same) there
  opened other there := by
    rw [connection?_update_eq]
    split_ifs with same
    · subst same
      exact ⟨_, by rw [h.own, Option.map_some]⟩
    · exact h.opened other (there.resolve_left (Ne.symm same))

/-- The index is that of the others: a connection of the same process tells it, and the file of one
of another process is left as it is. -/
theorem useLog_comes (h : Newcomer base at_ f slots knows slot c db e) (site : Site path at_ base)
    (company : ∃ other ≠ slot, ∃ d, e.connection? other = some d) :
    (useLog c at_ f.log).Comes e (.ok (f.use at_)) (Newcomer base at_ f slots knows slot c db) := by
  have partakes (d : Connection) (there : d ∈ e.openConnections) (uses : d.log.isSome) :
      Partakes at_ f db d := by
    obtain ⟨other, open_⟩ := mem_openConnections.mp there
    refine (h.others other d ?_ open_).1
    rintro rfl
    obtain rfl := Option.some.inj (h.own.symm.trans open_)
    rw [h.fresh.log] at uses
    cases uses
  obtain ⟨other, ne, d, there⟩ := company
  have old := (h.others other d ne there).1
  have inside : d ∈ e.openConnections := mem_openConnections.mpr ⟨other, there⟩
  have alone (elsewhere : d.process ≠ c.process) (reach : Nat) :
      (openIndex c at_ f.log reach).Comes e (.ok (f.use at_))
        (Newcomer base at_ f slots knows slot c db) := by
    obtain ⟨index, fs, opened, opens⟩ :=
      openIndex_comes h.fresh.toRegular site h.files.varies f.log reach
    obtain rfl := opened.eq_of_file h.files.index
    have still := h.setFiles (h.files.opened index_mem_places opened h.files.index)
    have foreign : (e.setFiles fs).isForeign c f.index = true :=
      List.any_eq_true.mpr ⟨d, inside, by simp [elsewhere, old.log, Files.use]⟩
    rw [if_pos foreign] at opens
    exact opens.mono fun _ same => same ▸ still
  refine comes_get.bind ?_
  rintro _ rfl
  -- Either another connection of the process tells the index, or its file is opened; then it is
  -- that of the others, and since they are of another process, what it says is kept.
  generalize peer : List.find? _ _ = found
  cases found with
  | some peer' =>
    have same := List.find?_some peer
    simp only [Bool.and_eq_true] at same
    simp only [Option.bind_some, (partakes peer' (List.mem_of_find?_eq_some peer) same.2).log]
    exact comes_pure h
  | none =>
    have elsewhere : d.process ≠ c.process := fun same => by
      simpa [same, old.file, h.fresh.file, old.log] using List.find?_eq_none.mp peer d inside
    simp only [Option.bind_none]
    exact alone elsewhere _

theorem joinLog_comes (h : Newcomer base at_ f slots knows slot c db e) (site : Site path at_ base)
    (company : ∃ other ≠ slot, ∃ d, e.connection? other = some d) (new : knows db none) :
    (joinLog slot c at_).Comes e (.ok ()) (Attended base at_ f (insert slot slots) knows db) := by
  have spot := site.spot h.files.varies mem_places
  obtain ⟨mode, permissions⟩ := spot.permissionsAt? h.files.database h.files.bounds.1
  obtain ⟨n, fs, open_, opened⟩ := site.openAt? h.files.varies log_mem_places mode
  obtain rfl := opened.eq_of_file h.files.log
  have still := h.setFiles (h.files.opened log_mem_places opened h.files.log)
  refine (joinLog_of_useLog h.fresh.supportsLog permissions open_
    (still.useLog_comes site company)).mono ?_
  rintro _ ⟨before, ready, rfl⟩
  exact ready.joins new

theorem settle_comes (h : Newcomer base at_ f slots knows slot c db e) (site : Site path at_ base)
    (company : ∃ other ≠ slot, ∃ d, e.connection? other = some d) (new : knows db none) :
    (settle slot).Comes e (.ok ()) (Attended base at_ f (insert slot slots) knows db) := by
  have journal := site.spot h.files.varies journal_mem_places
  refine settle_of_settleLog h.own h.fresh (fun d there => ?_)
    (journal.isOccupied_free h.files.journal)
    (settleLog_of_asks ?_ (h.joinLog_comes site company new))
  · obtain ⟨other, open_⟩ := mem_openConnections.mp there
    by_cases own : other = slot
    · subst own
      obtain rfl := Option.some.inj (h.own.symm.trans open_)
      exact h.fresh.system
    · exact (h.others other d own open_).1.system
  · obtain ⟨old, content, logged, -⟩ := h.files.told
    rw [asksForLog, h.fresh.file, content]
    exact logged

end Newcomer

/-! ## Coming to a database that nobody uses -/

/-- A connection has come to a database that nobody else uses, and beside which nothing lies. -/
structure Lone (base : FileSystem) (at_ : Location) (slot : Nat) (n : Nat) (c : Connection)
    (db : Database) (e : Engine) : Prop where
  varies : Varies (places at_) base e.files
  database : e.files.entry? at_ = some (.file n)
  log : e.files.entry? (.beside at_ logEnding) = none
  index : e.files.entry? (.beside at_ indexEnding) = none
  journal : e.files.entry? (.beside at_ journalEnding) = none
  bound : n < e.files.nodes.length
  content : (e.content n).asDatabase = .ok db
  own : e.connection? slot = some c
  fresh : Fresh at_ n c
  alone : ∀ other d, e.connection? other = some d → other = slot

namespace Lone

theorem eq_own (h : Lone base at_ slot n c db e) {d : Connection} (there : d ∈ e.openConnections) :
    d = c := by
  obtain ⟨other, open_⟩ := mem_openConnections.mp there
  obtain rfl := h.alone other d open_
  exact Option.some.inj (open_.symm.trans h.own)

theorem settle_of_settleLog (h : Lone base at_ slot n c db e) (site : Site path at_ base)
    (settles : (settleLog slot c at_).Comes e result holds) :
    (settle slot).Comes e result holds := by
  have journal := site.spot h.varies journal_mem_places
  refine Engine.settle_of_settleLog h.own h.fresh (fun d there => ?_)
    (journal.isOccupied_free h.journal) settles
  rw [h.eq_own there]
  exact h.fresh.system

/-- The files of a log have been made. -/
theorem logged (h : Lone base at_ slot n c db e) (site : Site path at_ base)
    (content : e.content n = .database db) (asks : db.logged = true) {log index : Nat}
    {withLog withIndex : FileSystem}
    (openedLog : e.files.OpenedAt (.beside at_ logEnding) log withLog)
    (openedIndex : withLog.OpenedAt (.beside at_ indexEnding) index withIndex) :
    Logged base at_ ⟨n, log, index⟩ db ((e.setFiles withIndex).setReach index 0) := by
  obtain ⟨rfl, boundLog, -⟩ := openedLog.new_of_free h.log
  have freeIndex : withLog.entry? (.beside at_ indexEnding) = none :=
    (openedLog.elsewhere _ log_ne_index.symm).trans h.index
  obtain ⟨rfl, boundIndex, -⟩ := openedIndex.new_of_free freeIndex
  have kept : ((e.setFiles withIndex).setReach withLog.nodes.length 0).content n =
      .database db := by
    have bound := Nat.lt_of_lt_of_le h.bound openedLog.le
    refine (content_setContent_of_ne (Nat.ne_of_gt bound) _).trans ?_
    refine (content_opened (e := e.setFiles withLog) openedIndex bound).trans ?_
    exact (content_opened openedLog h.bound).trans content
  have bounds (m : Nat) (lt : m < withIndex.nodes.length) :
      m < ((e.setFiles withIndex).setReach withLog.nodes.length 0).files.nodes.length := by
    simpa [Engine.setReach, Engine.setContent, setFiles] using lt
  exact {
    varies :=
      ((h.varies.opened log_mem_places openedLog).opened
        index_mem_places openedIndex).setContent _ _
    database := (openedIndex.elsewhere _ site.ne_index).trans
      ((openedLog.elsewhere _ site.ne_log).trans h.database)
    log := (openedIndex.elsewhere _ log_ne_index).trans openedLog.entry
    index := openedIndex.entry
    journal := (openedIndex.elsewhere _ journal_ne_index).trans
      ((openedLog.elsewhere _ journal_ne_log).trans h.journal)
    bounds := by
      have le := openedIndex.le
      have bound := h.bound
      exact ⟨bounds n (by omega), bounds e.files.nodes.length (by omega), bounds _ boundIndex⟩
    apart := by
      have bound := h.bound
      refine ⟨?_, ?_, ?_⟩ <;> simp only <;> omega
    told := ⟨db, kept, asks, .inl ⟨reach_setReach boundIndex 0, rfl⟩⟩
    asks }

/-- The connection makes a log, and is the only one that takes part in it. -/
theorem joinLog_comes (h : Lone base at_ slot n c db e) (site : Site path at_ base)
    (content : e.content n = .database db) (asks : db.logged = true) :
    ∃ f, (joinLog slot c at_).Comes e (.ok ()) (Attended base at_ f {slot} Known db) := by
  obtain ⟨mode, permissions⟩ := (site.spot h.varies mem_places).permissionsAt? h.database h.bound
  obtain ⟨log, withLog, open_, openedLog⟩ := site.openAt? h.varies log_mem_places mode
  have varies := h.varies.opened log_mem_places openedLog
  obtain ⟨index, withIndex, openedIndex, opens⟩ := openIndex_comes (e := e.setFiles withLog)
    h.fresh.toRegular site varies log 0
  have unused (d : Connection) (there : d ∈ e.openConnections) : d.log = none := by
    rw [h.eq_own there, h.fresh.log]
  have notForeign : ((e.setFiles withLog).setFiles withIndex).isForeign c index = false :=
    List.any_eq_false.mpr fun d there => by simp [unused d there]
  have noPeer : (e.setFiles withLog).openConnections.find? (fun d =>
      d.process = c.process && d.file = c.file && d.log.isSome) = none :=
    List.find?_eq_none.mpr fun d there => by simp [unused d there]
  have empty : (e.setFiles withLog).content log = .bytes [] := by
    obtain ⟨-, -, new⟩ := openedLog.new_of_free h.log
    rw [Engine.content, Engine.setFiles, new]
    rfl
  have uses : (useLog c at_ log).Comes (e.setFiles withLog)
      (.ok ⟨log, index, some (.beside at_ indexEnding), true⟩)
      (· = (e.setFiles withIndex).setReach index 0) := by
    refine comes_get.bind ?_
    rintro _ rfl
    rw [noPeer, empty]
    rw [if_neg (by simp [notForeign])] at opens
    exact opens
  refine ⟨⟨n, log, index⟩, (joinLog_of_useLog h.fresh.supportsLog permissions open_ uses).mono ?_⟩
  rintro _ ⟨_, rfl, rfl⟩
  have newcomer : Newcomer base at_ ⟨n, log, index⟩ ∅ Known slot c db
      ((e.setFiles withIndex).setReach index 0) := {
    files := h.logged site content asks openedLog openedIndex
    own := by
      rw [connection?_setReach, connection?_setFiles, h.own, Option.map_some, reread, h.fresh.log]
      rfl
    fresh := h.fresh
    others := fun other d ne open_ => by
      rw [connection?_setReach] at open_
      obtain ⟨d', open', -⟩ := Option.map_eq_some_iff.mp open_
      exact absurd (h.alone other d' open') ne
    opened := fun _ absurd => absurd.elim }
  exact (newcomer.joins (known_none db)).mono fun _ own => .inl own

end Lone

end CobolDialects.Engine
