import CobolDialects.Proofs.Engine.Site
import CobolDialects.Proofs.Engine.Unfailing

/-!
# Connections that share a log

Any number of connections, of one process or of several, take part in the log of one database. Each
of them sees what has been committed last, by whichever of them. Which connection carries out a
statement makes no difference, then, and neither do those that are opened or closed meanwhile.
-/

namespace CobolDialects.Engine

open Attempt Database FileSystem

/-! ## What the files say -/

/-- What the file of a database and its log say together if the index leads to a number of
changes. -/
def Tells (base : Database) (log : Content) (reach : Nat) (db : Database) : Prop :=
  reach = 0 ∧ base = db ∨ ∃ l, log = .log l ∧ l.state? reach = some db ∧ l.extent ≠ .torn

theorem Tells.eq_of_unreached {base db : Database} {log : Content} (h : Tells base log 0 db) :
    base = db := by
  rcases h with ⟨-, same⟩ | ⟨l, -, absurd, -⟩
  · exact same
  · cases absurd

theorem not_torn_next {extent : Extent} (h : extent ≠ .torn) (before after : Database) :
    extent.next before after ≠ .torn := by
  cases extent with
  | whole => simp [Extent.next]
  | part =>
    rw [Extent.next]
    split_ifs <;> simp
  | torn => exact absurd rfl h

/-- A change follows those to which the index leads. -/
theorem Tells.extended {base before : Database} {log : Content} {reach : Nat}
    (h : Tells base log reach before) (after : Database) :
    Tells base (.log (extendedLog log reach before after)) (reach + 1) after := by
  refine .inr ⟨_, rfl, ?_⟩
  rcases h with ⟨rfl, rfl⟩ | ⟨l, rfl, state, whole⟩
  · have part : Extent.part ≠ .torn := by decide
    exact ⟨Log.state?_begin _ _, not_torn_next part _ _⟩
  · cases reach with
    | zero => cases state
    | succ reach =>
      have long : ¬l.states.length < reach + 1 := by
        obtain ⟨lt, -⟩ := List.getElem?_eq_some_iff.mp state
        omega
      refine ⟨Log.state?_add _ _ _ _, ?_⟩
      simp only [extendedLog, Log.add, if_neg long]
      exact not_torn_next whole _ _

theorem isMergeable_of_not_torn {l : Log} (whole : l.extent ≠ .torn) (base : Database) :
    l.isMergeable (some base) = true := by
  unfold Log.isMergeable
  cases extent : l.extent with
  | whole => rfl
  | part => rfl
  | torn => exact absurd extent whole

/-- The files of a database with a log. -/
structure Files where
  database : Nat
  log : Nat
  index : Nat

/-- How a connection takes part in the log. -/
def Files.use (f : Files) (at_ : Location) : LogUse :=
  ⟨f.log, f.index, some (.beside at_ indexEnding), true⟩

variable {base : FileSystem} {at_ : Location} {f : Files} {db changed : Database} {e after : Engine}
  {slots : Set Nat} {knows : Database → Option Declaration → Prop} {slot : Nat} {c : Connection}

/-- The files of a database lie at their places, and say what the database is. -/
structure Logged (base : FileSystem) (at_ : Location) (f : Files) (db : Database) (e : Engine) :
    Prop where
  varies : Varies (places at_) base e.files
  database : e.files.entry? at_ = some (.file f.database)
  log : e.files.entry? (.beside at_ logEnding) = some (.file f.log)
  index : e.files.entry? (.beside at_ indexEnding) = some (.file f.index)
  journal : e.files.entry? (.beside at_ journalEnding) = none
  bounds : f.database < e.files.nodes.length ∧ f.log < e.files.nodes.length ∧
    f.index < e.files.nodes.length
  apart : f.database ≠ f.log ∧ f.database ≠ f.index ∧ f.log ≠ f.index
  told : ∃ old, e.content f.database = .database old ∧ old.logged = true ∧
    Tells old (e.content f.log) (e.reach f.index) db
  asks : db.logged = true

/-- A connection to a file such as an ordinary address asks for. -/
structure Regular (at_ : Location) (file : Nat) (c : Connection) : Prop where
  file : c.file = file
  location : c.location = some at_
  system : c.system = .standard
  writable : c.readOnly = false
  mutable_ : c.immutable = false
  locks : c.lockless = false
  indexes : c.indexReadOnly = false
  private_ : c.sharing = false

/-- The connection takes part in the log, and sees what is committed there. -/
structure Partakes (at_ : Location) (f : Files) (db : Database) (c : Connection) : Prop
    extends Regular at_ f.database c where
  log : c.log = some (f.use at_)
  cached : ∀ seen, c.cached = some seen → seen = db

/-- What is known of the declaration of a database is so still, and it declares a relation. -/
def Known (db : Database) (known : Option Declaration) : Prop :=
  ∀ d, known = some d → d = db.declaration ∧ d.shape.isSome

theorem known_none (db : Database) : Known db none := by
  intro d told
  cases told

/-- The connection takes part in the log, and what it remembers is so still. -/
structure Joined (at_ : Location) (f : Files) (db : Database) (c : Connection) : Prop
    extends Regular at_ f.database c where
  log : c.log = some (f.use at_)
  known : ∀ d, c.known = some d → d = db.declaration ∧ d.shape.isSome
  cached : ∀ seen, c.cached = some seen → seen = db

theorem joined_iff : Joined at_ f db c ↔ Partakes at_ f db c ∧ Known db c.known :=
  ⟨fun h => ⟨⟨h.toRegular, h.log, h.cached⟩, h.known⟩,
    fun ⟨h, known⟩ => ⟨h.toRegular, h.log, known, h.cached⟩⟩

/-- Some slots are open, and whatever is open takes part in the log of the database and knows what
it may know of the declaration. -/
structure Attended (base : FileSystem) (at_ : Location) (f : Files) (slots : Set Nat)
    (knows : Database → Option Declaration → Prop) (db : Database) (e : Engine) : Prop where
  files : Logged base at_ f db e
  partakes : ∀ slot c, e.connection? slot = some c → Partakes at_ f db c ∧ knows db c.known
  opened : ∀ slot ∈ slots, ∃ c, e.connection? slot = some c

/-- Some slots are open, and whatever is open takes part in the log of the database. -/
structure Shared (base : FileSystem) (at_ : Location) (f : Files) (slots : Set Nat) (db : Database)
    (e : Engine) : Prop where
  files : Logged base at_ f db e
  joined : ∀ slot c, e.connection? slot = some c → Joined at_ f db c
  opened : ∀ slot ∈ slots, ∃ c, e.connection? slot = some c

theorem shared_iff : Shared base at_ f slots db e ↔ Attended base at_ f slots Known db e :=
  ⟨fun h => ⟨h.files, fun slot c open_ => joined_iff.mp (h.joined slot c open_), h.opened⟩,
    fun h => ⟨h.files, fun slot c open_ => joined_iff.mpr (h.partakes slot c open_), h.opened⟩⟩

/-! ## Reading -/

theorem Logged.seen (h : Logged base at_ f db e) (joined : Partakes at_ f db c) :
    e.seen c = .ok db := by
  obtain ⟨old, content, -, told⟩ := h.told
  -- The log counts only if the index leads to it, and is read only by those who remember nothing.
  by_cases unreached : e.reach f.index = 0
  · rw [unreached] at told
    obtain rfl := told.eq_of_unreached
    simp only [Engine.seen, joined.log, joined.file, Files.use, unreached, if_true, besideLog,
      content]
  · simp only [Engine.seen, joined.log, joined.file, Files.use, unreached, if_false]
    cases cached : c.cached with
    | some seen =>
      rw [joined.cached seen cached]
      rfl
    | none =>
      obtain ⟨l, log, state, whole⟩ := told.resolve_left fun reached => unreached reached.1
      simp only [Option.elim, throughLog, log, state, content, Content.database?,
        isMergeable_of_not_torn whole, if_true]

theorem Logged.congr (h : Logged base at_ f db e) (same : after.files = e.files) :
    Logged base at_ f db after := by
  obtain ⟨files, connections, named, process⟩ := e
  obtain ⟨files', connections', named', process'⟩ := after
  obtain rfl : files' = files := same
  exact ⟨h.varies, h.database, h.log, h.index, h.journal, h.bounds, h.apart, h.told, h.asks⟩

namespace Attended

theorem mono {fewer : Set Nat} (h : Attended base at_ f slots knows db e) (le : fewer ⊆ slots) :
    Attended base at_ f fewer knows db e :=
  ⟨h.files, h.partakes, fun slot there => h.opened slot (le there)⟩

theorem weaken {knows' : Database → Option Declaration → Prop}
    (h : Attended base at_ f slots knows db e) (le : ∀ known, knows db known → knows' db known) :
    Attended base at_ f slots knows' db e :=
  ⟨h.files, fun slot c open_ => (h.partakes slot c open_).imp_right (le _), h.opened⟩

/-- Connections may be changed as long as they take part in the log. -/
theorem connections (h : Attended base at_ f slots knows db e)
    (files : Logged base at_ f changed after) (g : Nat → Connection → Connection)
    (same : ∀ slot, after.connection? slot = (e.connection? slot).map (g slot))
    (partakes : ∀ slot c, e.connection? slot = some c →
      Partakes at_ f changed (g slot c) ∧ knows changed (g slot c).known) :
    Attended base at_ f slots knows changed after where
  files := files
  partakes slot c there := by
    rw [same] at there
    obtain ⟨c', old, rfl⟩ := Option.map_eq_some_iff.mp there
    exact partakes slot c' old
  opened slot there := by
    obtain ⟨c, open_⟩ := h.opened slot there
    exact ⟨_, by rw [same, open_, Option.map_some]⟩

theorem update (h : Attended base at_ f slots knows db e) (g : Connection → Connection)
    (partakes : ∀ c, e.connection? slot = some c → Partakes at_ f db (g c) ∧ knows db (g c).known) :
    Attended base at_ f slots knows db (e.update slot g) := by
  refine h.connections (h.files.congr rfl) (fun other c => if slot = other then g c else c)
    (fun other => ?_) fun other c open_ => ?_
  · rw [connection?_update_eq]
    split_ifs
    · rfl
    · exact Option.map_id'.symm
  · split_ifs with same
    · exact partakes c (same ▸ open_)
    · exact h.partakes other c open_

theorem remember (h : Attended base at_ f slots knows db e) :
    Attended base at_ f slots knows db (e.remember slot db) := by
  refine h.update _ fun c open_ => ?_
  obtain ⟨partakes, known⟩ := h.partakes slot c open_
  exact ⟨{ partakes with cached := fun _ same => (Option.some.inj same).symm }, known⟩

theorem learned (h : Attended base at_ f slots knows db e)
    (learns : knows db (some db.declaration)) :
    Attended base at_ f slots knows db (e.learned slot db.declaration) := by
  refine h.update _ fun c open_ => ?_
  obtain ⟨partakes, -⟩ := h.partakes slot c open_
  have own : ¬c.sharing = true := by simp [partakes.private_]
  rw [if_neg own]
  exact ⟨{ partakes with }, learns⟩

/-- There is nothing left to be settled. -/
theorem settle_comes (h : Attended base at_ f slots knows db e)
    (open_ : e.connection? slot = some c) : (settle slot).Comes e (.ok ()) (· = e) := by
  obtain ⟨partakes, -⟩ := h.partakes slot c open_
  refine (comes_connection open_).bind ?_
  rintro _ rfl
  rw [partakes.location]
  simp only [partakes.log, Option.isSome_some, or_true, if_true]
  exact comes_pure rfl

/-- What is seen by a connection that has joined the log is the database. -/
theorem look_of_settle (settles : (settle slot).Comes e (.ok ()) (· = after))
    (h : Attended base at_ f slots knows db after) (open_ : after.connection? slot = some c) :
    (view slot).Comes e (.ok db) (· = after.remember slot db) := by
  obtain ⟨partakes, -⟩ := h.partakes slot c open_
  refine settles.bind ?_
  rintro _ rfl
  refine (comes_connection open_).bind ?_
  rintro _ rfl
  refine comes_get.bind ?_
  rintro _ rfl
  rw [h.files.seen partakes]
  simp only [partakes.log, Option.isSome_some, or_true, if_true]
  exact Comes.bind ⟨_, rfl, rfl⟩ fun last same => comes_pure same.symm

theorem view_of_settle
    (settles : (settle slot).Comes e (.ok ()) (Attended base at_ f slots knows db))
    (there : slot ∈ slots) :
    (view slot).Comes e (.ok db) (Attended base at_ f slots knows db) := by
  obtain ⟨mid, settled, h⟩ := settles
  obtain ⟨c, open_⟩ := h.opened slot there
  exact (look_of_settle ⟨mid, settled, rfl⟩ h open_).mono fun _ same => same ▸ h.remember

theorem view_comes (h : Attended base at_ f slots knows db e) (there : slot ∈ slots) :
    (view slot).Comes e (.ok db) (Attended base at_ f slots knows db) := by
  obtain ⟨c, open_⟩ := h.opened slot there
  exact view_of_settle ((h.settle_comes open_).mono fun _ same => same ▸ h) there

theorem requireWritable_comes (h : Attended base at_ f slots knows db e)
    (open_ : e.connection? slot = some c) : (requireWritable slot).Comes e (.ok ()) (· = e) := by
  have writable := Engine.requireWritable_comes open_
  rwa [(h.partakes slot c open_).1.writable] at writable

end Attended

/-- The database is used through a slot, whose connection knows something of the declaration and may
learn what this is now. -/
structure AttendedThrough (base : FileSystem) (at_ : Location) (f : Files) (slots : Set Nat)
    (knows : Database → Option Declaration → Prop) (slot : Nat) (known : Option Declaration)
    (db : Database) (e : Engine) : Prop where
  attended : Attended base at_ f slots knows db e
  learns : knows db (some db.declaration)
  connection : ∃ c, e.connection? slot = some c ∧ c.known = known

/-- Nothing keeps a statement from being carried out on the database. -/
theorem consulting_attended (base : FileSystem) (at_ : Location) (f : Files) (slots : Set Nat)
    (knows : Database → Option Declaration → Prop) (slot : Nat) (writing : Bool) :
    Consulting slot writing False (AttendedThrough base at_ f slots knows slot) where
  connection h := h.connection
  view h := by
    obtain ⟨c, open_, known⟩ := h.connection
    refine .inl ((h.attended.look_of_settle (h.attended.settle_comes open_) open_).mono ?_)
    rintro _ rfl
    exact ⟨h.attended.remember, h.learns, _, connection?_remember open_ _, known⟩
  learn {known db e} h := by
    obtain ⟨c, open_, -⟩ := h.connection
    have own : ¬c.sharing = true := by simp [(h.attended.partakes slot c open_).1.private_]
    refine ⟨some db.declaration, fun d same => by rw [← Option.some.inj same]; rfl,
      h.attended.learned h.learns, h.learns, { c with known := some db.declaration }, ?_, rfl⟩
    rw [Engine.learned, connection?_update, open_, Option.map_some, if_neg own]
  writable _ h := by
    obtain ⟨c, open_, -⟩ := h.connection
    exact .inl ((h.attended.requireWritable_comes open_).mono fun _ same => same ▸ h)

theorem Consulted.attended {known : Declaration} {check : Check}
    (h : Consulted (AttendedThrough base at_ f slots knows slot) known db check e) :
    Attended base at_ f slots knows db e :=
  h.elim fun _ through => through.1.attended

/-! ## Changing -/

/-- The engine for which a change has gone to the log. -/
def extended (e : Engine) (f : Files) (before after : Database) : Engine :=
  (e.setContent f.log
    (.log (extendedLog (e.content f.log) (e.reach f.index) before after))).setReach
      f.index (e.reach f.index + 1)

theorem content_setContent_of_ne {n m : Nat} (ne : n ≠ m) (written : Content) :
    (e.setContent n written).content m = e.content m := by
  rw [Engine.content, setContent, setFiles, node?_setContent_of_ne _ ne, Engine.content]

theorem Logged.extended (h : Logged base at_ f db e) (asks : changed.logged = true) :
    Logged base at_ f changed (e.extended f db changed) := by
  obtain ⟨old, content, logged, told⟩ := h.told
  obtain ⟨apartLog, apartIndex, apart⟩ := h.apart
  have same (n : Nat) (ne : f.log ≠ n) (ne' : f.index ≠ n) :
      (e.extended f db changed).content n = e.content n :=
    (content_setContent_of_ne ne' _).trans (content_setContent_of_ne ne _)
  exact {
    varies := (h.varies.setContent _ _).setContent _ _
    database := h.database
    log := h.log
    index := h.index
    journal := h.journal
    bounds := by
      simpa [Engine.extended, Engine.setReach, Engine.setContent, setFiles] using h.bounds
    apart := h.apart
    told := by
      refine ⟨old, (same _ apartLog.symm apartIndex.symm).trans content, logged, ?_⟩
      have log : (e.extended f db changed).content f.log =
          .log (extendedLog (e.content f.log) (e.reach f.index) db changed) :=
        (content_setContent_of_ne apart.symm _).trans (content_setContent h.bounds.2.1 _)
      have reach : (e.extended f db changed).reach f.index = e.reach f.index + 1 :=
        reach_setReach (by simpa [Engine.setContent, setFiles] using h.bounds.2.2) _
      rw [log, reach]
      exact told.extended changed
    asks := asks }

namespace Attended

/-- All connections read the database again after a change. -/
theorem extended (h : Attended base at_ f slots knows db e) (asks : changed.logged = true)
    (keeps : ∀ known, knows db known → knows changed known) :
    Attended base at_ f slots knows changed (e.extended f db changed) := by
  refine h.connections (h.files.extended asks) (fun _ => reread f.index)
    (fun slot => by rw [Engine.extended, connection?_setReach, connection?_setContent])
    fun slot c open_ => ?_
  obtain ⟨partakes, known⟩ := h.partakes slot c open_
  have uses : c.log.any (·.index = f.index) = true := by simp [partakes.log, Files.use]
  rw [reread, if_pos uses]
  exact ⟨{ partakes with cached := fun _ absurd => by cases absurd }, keeps _ known⟩

theorem commit_comes (h : Attended base at_ f slots knows db e)
    (open_ : e.connection? slot = some c) (asks : changed.logged = true)
    (keeps : ∀ known, knows db known → knows changed known) :
    (commit slot db changed).Comes e (.ok ()) (Attended base at_ f slots knows changed) := by
  obtain ⟨partakes, -⟩ := h.partakes slot c open_
  refine (h.requireWritable_comes open_).bind ?_
  rintro _ rfl
  refine (comes_connection open_).bind ?_
  rintro _ rfl
  simp only [partakes.location, partakes.log, commitToLog]
  refine comes_get.bind ?_
  rintro _ rfl
  exact ⟨_, rfl, (h.extended asks keeps).remember⟩

end Attended

/-! ## Statements of those who know the declaration -/

theorem understood_declaration (db : Database) (check : Check) :
    understood db.declaration db check = check db.shape? := by
  unfold understood Database.declaration
  cases checked : check db.shape? <;> simp

theorem Known.getD {known : Option Declaration} (h : Known db known) :
    known.getD db.declaration = db.declaration := by
  cases known with
  | none => rfl
  | some d => exact (h d rfl).1

namespace Shared

variable (h : Shared base at_ f slots db e) (declared : db.shape?.isSome) (there : slot ∈ slots)
  {check : Check}

include h declared there

theorem through : ∃ known, known.getD db.declaration = db.declaration ∧
    AttendedThrough base at_ f slots Known slot known db e := by
  have attended := shared_iff.mp h
  obtain ⟨c, open_⟩ := h.opened slot there
  have learns : Known db (some db.declaration) := fun d same =>
    Option.some.inj same ▸ ⟨rfl, declared⟩
  exact ⟨c.known, (attended.partakes slot c open_).2.getD, attended, learns, c, open_, rfl⟩

/-- A statement that reads gives what is in the database. -/
theorem query_comes {α : Type} {read : Database → Except Error α}
    (fails : ∀ error, check db.shape? = .error error → read db = .error error) :
    (query slot check read).Comes e (read db) (Shared base at_ f slots db) := by
  obtain ⟨known, same, through⟩ := h.through declared there
  have queried := ((consulting_attended base at_ f slots Known slot false).query_comes through check
    read).comes
  rw [same, understood_declaration] at queried
  cases checked : check db.shape? with
  | ok =>
    rw [checked] at queried
    exact queried.mono fun after consulted => shared_iff.mpr consulted.attended
  | error error =>
    rw [checked] at queried
    rw [fails error checked]
    exact queried.mono fun after consulted => shared_iff.mpr consulted.attended

/-- A statement that writes leaves the database as it is to be, unless it fails. -/
theorem execute_comes {write : Database → Except Error Database}
    (checked : check db.shape? = .ok ())
    (written : write db = .ok changed) (asks : changed.logged = true)
    (same : changed.declaration = db.declaration) :
    (execute slot check write).Comes e (.ok ()) (Shared base at_ f slots changed) := by
  obtain ⟨known, knows, through⟩ := h.through declared there
  refine ((consulting_attended base at_ f slots Known slot true).execute_comes through ?_ written
    fun after consulted => ?_).comes
  · rw [knows, understood_declaration, checked]
  · obtain ⟨_, ⟨attended, -, c, open_, -⟩, -⟩ := consulted
    refine .inl ((attended.commit_comes open_ asks fun known now d told => ?_).mono
      fun _ => shared_iff.mpr)
    rw [same]
    exact now d told

theorem execute_fails {write : Database → Except Error Database} {error : Error}
    (fails : check db.shape? = .error error) :
    (execute slot check write).Comes e (.error error) (Shared base at_ f slots db) := by
  obtain ⟨known, same, through⟩ := h.through declared there
  have refused : understood (known.getD db.declaration) db check = .error error := by
    rw [same, understood_declaration, fails]
  have failed := ((consulting_attended base at_ f slots Known slot true).execute_fails through write
    refused).comes
  exact failed.mono fun _ consulted => shared_iff.mpr consulted.attended

end Shared

end CobolDialects.Engine
