import CobolDialects.Proofs.Engine.Attempt
import CobolDialects.Proofs.Engine.Mirrors

/-!
# Statements on engines that mirror one another

Whatever is done through a connection to a database that lies away from the region succeeds in both
engines with the same result, or fails in both of them with the same error, and they mirror one
another behind it as before. So it is with each step, and with what consists of such steps.
-/

namespace CobolDialects.Engine

open Attempt Database

variable {region : Set Location} {base fs fs' : FileSystem} {r : Renumbering} {first slot n : Nat}
  {e e' : Engine} {c c' : Connection} {at_ : Location} {use : LogUse}

/-- What comes of two attempts that succeed with related results, or fail with the same error. -/
inductive Results {α : Type} (rel : α → α → Prop) :
    Except Error α → Except Error α → Prop
  | ok {x x' : α} (related : rel x x') : Results rel (.ok x) (.ok x')
  | error (error : Error) : Results rel (.error error) (.error error)

/-- Two attempts on engines end alike, and the engines mirror one another behind them. -/
def BlindOn (region : Set Location) (base : FileSystem) (r : Renumbering) (first : Nat)
    (e e' : Engine) {α : Type} (rel : α → α → Prop) (a a' : Attempt α) : Prop :=
  Results rel (a.on e).1 (a'.on e').1 ∧ Mirrors region base r first (a.on e).2 (a'.on e').2

/-- Engines that mirror one another cannot be told apart by two attempts, but for what is
related. -/
def Blind (region : Set Location) (base : FileSystem) (r : Renumbering) (first : Nat) {α : Type}
    (rel : α → α → Prop) (a a' : Attempt α) : Prop :=
  ∀ e e', Mirrors region base r first e e' → BlindOn region base r first e e' rel a a'

/-! ## Steps -/

section Steps

variable {α β : Type} {rel : α → α → Prop} {rel' : β → β → Prop} {a a' : Attempt α}
  {f f' : α → Attempt β}

theorem BlindOn.bind (h : BlindOn region base r first e e' rel a a')
    (next : ∀ x x', rel x x' → Blind region base r first rel' (f x) (f' x')) :
    BlindOn region base r first e e' rel' (a >>= f) (a' >>= f') := by
  obtain ⟨results, still⟩ := h
  unfold BlindOn
  rw [on_bind, on_bind]
  generalize a.on e = o at results still ⊢
  generalize a'.on e' = o' at results still ⊢
  obtain ⟨result, after⟩ := o
  obtain ⟨result', after'⟩ := o'
  cases results with
  | ok related => exact next _ _ related after after' still
  | error error => exact ⟨.error error, still⟩

theorem Blind.bind (h : Blind region base r first rel a a')
    (next : ∀ x x', rel x x' → Blind region base r first rel' (f x) (f' x')) :
    Blind region base r first rel' (a >>= f) (a' >>= f') :=
  fun e e' mirrors => (h e e' mirrors).bind next

theorem blind_pure {x x' : α} (related : rel x x') :
    Blind region base r first rel (pure x) (pure x') := fun _ _ mirrors => ⟨.ok related, mirrors⟩

theorem blind_throw (error : Error) : Blind region base r first rel (throw error) (throw error) :=
  fun _ _ mirrors => ⟨.error error, mirrors⟩

theorem blind_refuse (o : Obstacle) : Blind region base r first rel (refuse o) (refuse o) :=
  blind_throw (.obstacle o)

theorem blind_ofExcept (result : Except Error α) :
    Blind region base r first Eq (MonadExcept.ofExcept result)
      (MonadExcept.ofExcept result) := by
  cases result with
  | ok x => exact blind_pure rfl
  | error error => exact blind_throw error

theorem Blind.observe (h : Blind region base r first Eq a a') :
    Blind region base r first Eq a.observe a'.observe := by
  intro e e' mirrors
  obtain ⟨results, still⟩ := h e e' mirrors
  refine ⟨.ok ?_, still⟩
  show (a.on e).1 = (a'.on e').1
  generalize (a.on e).1 = result at results ⊢
  generalize (a'.on e').1 = result' at results ⊢
  cases results with
  | ok same => exact congrArg Except.ok same
  | error => rfl

theorem blind_ite {p p' : Prop} [Decidable p] [Decidable p'] {b b' : Attempt α} (same : p' ↔ p)
    (yes : p → Blind region base r first rel a a') (no : ¬p → Blind region base r first rel b b') :
    Blind region base r first rel (if p then a else b) (if p' then a' else b') := by
  by_cases holds : p
  · rw [if_pos holds, if_pos (same.mpr holds)]
    exact yes holds
  · rw [if_neg holds, if_neg (mt same.mp holds)]
    exact no holds

/-- What is done unless it fails before. -/
theorem blind_guard {p p' : Prop} [Decidable p] [Decidable p'] {error : Error}
    {never never' : PUnit → Attempt α} (same : p' ↔ p)
    (rest : ¬p → Blind region base r first rel a a') :
    Blind region base r first rel (if p then throw error >>= never else a)
      (if p' then throw error >>= never' else a') :=
  blind_ite same (fun _ _ _ mirrors => ⟨.error _, mirrors⟩) rest

theorem blind_get :
    Blind region base r first (Mirrors region base r first) (get : Attempt Engine) get :=
  fun _ _ mirrors => ⟨.ok mirrors, mirrors⟩

theorem blind_set (mirrors : Mirrors region base r first e e') :
    Blind region base r first Eq (set e : Attempt PUnit) (set e') :=
  fun _ _ _ => ⟨.ok rfl, mirrors⟩

theorem blind_modify {g g' : Engine → Engine} (keeps : ∀ e e', Mirrors region base r first e e' →
    Mirrors region base r first (g e) (g' e')) :
    Blind region base r first Eq (modify g : Attempt PUnit) (modify g') :=
  fun e e' mirrors => ⟨.ok rfl, keeps e e' mirrors⟩

theorem blind_setFiles (files : FileSystem.Mirrors region base r fs fs') :
    Blind region base r first Eq (Attempt.setFiles fs) (Attempt.setFiles fs') :=
  blind_modify fun _ _ mirrors => mirrors.setFiles files

end Steps

/-- A connection as it is in both engines, to a database that lies away from the region. -/
structure Twins (region : Set Location) (base : FileSystem) (r : Renumbering)
    (c c' : Connection) : Prop where
  same : c' = c.renumbered r
  shared : c.Shared r
  apart : ∀ at_, c.location = some at_ → Apart region base at_

theorem blind_connection (own : first ≤ slot) :
    Blind region base r first (Twins region base r) (connection slot) (connection slot) := by
  refine blind_get.bind fun e e' mirrors => ?_
  rw [mirrors.connection?]
  cases open_ : e.connection? slot with
  | none => exact blind_refuse _
  | some c =>
    exact blind_pure ⟨rfl, mirrors.shared_connection open_,
      fun at_ location => mirrors.apart slot c at_ own open_ location⟩

/-! ## What lies beside a database -/

theorem Apart.place (h : Apart region base at_) (ending : String)
    (there : ending ∈ [logEnding, indexEnding, journalEnding, lockEnding]) :
    Location.beside at_ ending ∉ region ∧ base.Away region (Location.beside at_ ending).path :=
  h _ (List.mem_cons_of_mem _ (List.mem_map_of_mem there))

theorem renumbered_directory {found : Option Entry} :
    found.map (Entry.renumbered r) = some .directory ↔ found = some .directory := by
  rcases found with _ | _ | _ | _ <;> simp [Entry.renumbered]

theorem blind_rollBack (shared : c.Shared r) {journal : Location} (outside : journal ∉ region) :
    Blind region base r first Eq (rollBack c journal) (rollBack (c.renumbered r) journal) := by
  refine blind_get.bind fun e e' mirrors => ?_
  refine blind_ite .rfl (fun _ => blind_refuse _) fun _ => ?_
  refine blind_ite (by rw [mirrors.isHeld shared]) (fun _ => blind_refuse _) fun _ => ?_
  rw [mirrors.files.entry _ outside]
  rcases e.files.entry? journal with _ | _ | _ | _
  · exact blind_refuse _
  · exact blind_refuse _
  · exact blind_setFiles (mirrors.files.unlink journal)
  · exact blind_refuse _

theorem blind_settleJournal (shared : c.Shared r) (apart : Apart region base at_) :
    Blind region base r first Eq (settleJournal c at_) (settleJournal (c.renumbered r) at_) := by
  obtain ⟨outside, away⟩ := apart.place journalEnding (by simp)
  refine blind_get.bind fun e e' mirrors => ?_
  have files := mirrors.files
  have ownAway := files.away (apart at_ List.mem_cons_self).2
  refine blind_ite (by rw [files.isOccupied (files.away away)])
    (fun _ => ?_) fun _ => blind_pure rfl
  refine blind_ite (by rw [Connection.file_renumbered, mirrors.isVoid shared.file]) (fun _ => ?_)
    fun _ => ?_
  · exact blind_ite .rfl (fun _ => blind_setFiles (files.unlink _)) fun _ => blind_pure rfl
  refine blind_ite (by rw [files.permissionsAt? ownAway]) (fun _ => blind_refuse _) fun _ => ?_
  rw [files.entry _ outside]
  cases journal : e.files.entry? (.beside at_ journalEnding) with
  | none => exact blind_rollBack shared outside
  | some entry =>
    cases entry with
    | directory => exact blind_refuse _
    | link target => exact blind_rollBack shared outside
    | file n =>
      exact blind_ite (by rw [files.contentOf (files.shared _ outside n journal)])
        (fun _ => blind_rollBack shared outside) fun _ => blind_pure rfl

/-! ## The log -/

/-- A file as it is numbered in both engines. -/
structure Numbers (r : Renumbering) (n n' : Nat) : Prop where
  same : n' = r.number n
  shared : n ∈ r.shared

/-- How a connection takes part in a log, in both engines. -/
structure Uses (r : Renumbering) (use use' : LogUse) : Prop where
  same : use' = use.renumbered r
  shared : use.Shared r

theorem blind_addIndex (reach : Nat) :
    Blind region base r first (Numbers r) (addIndex reach) (addIndex reach) := by
  refine blind_get.bind fun e e' mirrors => ?_
  obtain ⟨shared, number⟩ := mirrors.files.fresh
  exact (blind_setFiles (mirrors.files.addNode _)).bind fun _ _ _ =>
    blind_pure ⟨number.symm, shared⟩

theorem blind_openIndex (shared : c.Shared r) (apart : Apart region base at_) (log : n ∈ r.shared)
    (reach : Nat) :
    Blind region base r first (Uses r) (openIndex c at_ n reach)
      (openIndex (c.renumbered r) at_ (r.number n) reach) := by
  obtain ⟨outside, away⟩ := apart.place indexEnding (by simp)
  have inMemory (place : Option Location) (writable : Bool) :
      Blind region base r first (Uses r)
        (do return ⟨n, ← addIndex reach, place, writable⟩)
        (do return ⟨r.number n, ← addIndex reach, place, writable⟩) :=
    (blind_addIndex reach).bind fun m m' index =>
      blind_pure ⟨by rw [index.same]; rfl, log, index.shared⟩
  refine blind_get.bind fun e e' mirrors => ?_
  have files := mirrors.files
  refine blind_ite .rfl (fun _ => inMemory none true) fun _ => ?_
  rw [Connection.file_renumbered, files.node _ shared.file]
  generalize ((e.files.node? c.file).map fun node => FileSystem.permissions node.mode).getD 0 = mode
  rcases files.openAt?_unless (files.away away) true mode c.indexReadOnly with
    ⟨none, none'⟩ | ⟨index, opened, opened', there, there', indexShared, still⟩
  · rw [Connection.indexReadOnly_renumbered, none, none']
    dsimp only
    rw [files.entry _ outside]
    rcases e.files.entry? (.beside at_ indexEnding) with _ | _ | _ | _
    · exact blind_refuse _
    · exact inMemory _ false
    · exact inMemory _ false
    · exact blind_refuse _
  · rw [Connection.indexReadOnly_renumbered, there, there']
    have reopened := mirrors.setFiles still
    have set_ : Mirrors region base r first
        (if (e.setFiles opened).isForeign c index then e.setFiles opened
          else (e.setFiles opened).setReach index reach)
        (if (e'.setFiles opened').isForeign (c.renumbered r) (r.number index)
          then e'.setFiles opened' else (e'.setFiles opened').setReach (r.number index) reach) := by
      rw [reopened.isForeign indexShared]
      split_ifs
      · exact reopened
      · exact reopened.setReach indexShared reach
    exact (blind_set set_).bind fun _ _ _ => blind_pure ⟨rfl, log, indexShared⟩

theorem blind_useLog (shared : c.Shared r) (apart : Apart region base at_) (log : n ∈ r.shared) :
    Blind region base r first (Uses r) (useLog c at_ n)
      (useLog (c.renumbered r) at_ (r.number n)) := by
  refine blind_get.bind fun e e' mirrors => ?_
  have peer : e'.openConnections.find? (fun d => d.process = (c.renumbered r).process &&
        d.file = (c.renumbered r).file && d.log.isSome) =
      (e.openConnections.find? fun d => d.process = c.process && d.file = c.file &&
        d.log.isSome).map (Connection.renumbered r) :=
    mirrors.find_open fun d own => by
      rw [Connection.file_renumbered, Connection.file_renumbered, Connection.log_renumbered,
        Option.isSome_map, decide_eq_decide.mpr (r.number_eq_iff own.file shared.file)]
      rfl
  dsimp only
  rw [peer, mirrors.content log]
  cases found : e.openConnections.find? fun d =>
      d.process = c.process && d.file = c.file && d.log.isSome with
  | none => exact blind_openIndex shared apart log _
  | some d =>
    simp only [Option.map_some, Option.bind_some, Connection.log_renumbered]
    cases joined : d.log with
    | none => exact blind_openIndex shared apart log _
    | some use =>
      have own := (mirrors.shared_open (List.mem_of_find?_eq_some found)).log use joined
      exact blind_pure ⟨rfl, log, own.index⟩

theorem blind_joinLog (shared : c.Shared r) (apart : Apart region base at_) :
    Blind region base r first Eq (joinLog slot c at_) (joinLog slot (c.renumbered r) at_) := by
  obtain ⟨-, away⟩ := apart.place logEnding (by simp)
  refine blind_guard .rfl fun _ => ?_
  refine blind_get.bind fun e e' mirrors => ?_
  have files := mirrors.files
  dsimp only
  rw [files.permissionsAt? (files.away (apart at_ List.mem_cons_self).2)]
  cases e.files.permissionsAt? at_.path with
  | none => exact blind_refuse _
  | some mode =>
    rcases files.openAt? (files.away away) true mode with
      ⟨none, none'⟩ | ⟨log, opened, opened', there, there', logShared, still⟩
    · simp only [none, none']
      exact blind_refuse _
    · simp only [there, there']
      refine (blind_setFiles still).bind fun _ _ _ => ?_
      refine (blind_useLog shared apart logShared).bind fun use use' uses => ?_
      refine blind_modify fun e e' mirrors => ?_
      refine mirrors.update slot (fun d _ => ?_) (fun d open_ => ?_) fun _ => rfl
      · rw [uses.same]
        rfl
      · refine ⟨(mirrors.shared_connection open_).file, ?_⟩
        rintro _ ⟨⟩
        exact uses.shared

theorem blind_settleLog (shared : c.Shared r) (apart : Apart region base at_) :
    Blind region base r first Eq (settleLog slot c at_) (settleLog slot (c.renumbered r) at_) := by
  obtain ⟨outside, away⟩ := apart.place logEnding (by simp)
  refine blind_get.bind fun e e' mirrors => ?_
  have files := mirrors.files
  refine blind_ite (by rw [files.isOccupied (files.away away)]) (fun _ => ?_) fun _ => ?_
  · refine blind_ite (by rw [Connection.file_renumbered, mirrors.isVoid shared.file])
      (fun _ => blind_joinLog shared apart) fun _ => ?_
    refine blind_ite (by rw [files.entry _ outside, renumbered_directory]) (fun _ => blind_refuse _)
      fun _ => blind_setFiles (files.unlink _)
  · exact blind_ite (by rw [Connection.file_renumbered, mirrors.asksForLog shared.file])
      (fun _ => blind_joinLog shared apart) fun _ => blind_pure rfl

theorem blind_settle (own : first ≤ slot) :
    Blind region base r first Eq (settle slot) (settle slot) := by
  refine (blind_connection own).bind fun c c' twins => ?_
  obtain ⟨rfl, shared, apart⟩ := twins
  rw [Connection.location_renumbered]
  cases location : c.location with
  | none => exact blind_pure rfl
  | some at_ =>
    replace apart := apart at_ location
    obtain ⟨-, away⟩ := apart.place lockEnding (by simp)
    refine blind_ite (by simp) (fun _ => blind_pure rfl) fun _ => ?_
    refine blind_get.bind fun e e' mirrors => ?_
    refine blind_guard (by rw [mirrors.isBarred shared]) fun _ => ?_
    refine blind_get.bind fun e e' mirrors => ?_
    refine blind_guard ?_ fun _ => ?_
    · rw [mirrors.files.find (mirrors.files.away away)]
      cases e.files.find false (Location.beside at_ lockEnding).path <;> rfl
    exact (blind_settleJournal shared apart).bind fun _ _ _ => blind_settleLog shared apart

/-! ## Reading and changing -/

theorem blind_view (own : first ≤ slot) :
    Blind region base r first Eq (view slot) (view slot) := by
  refine (blind_settle own).bind fun _ _ _ => ?_
  refine (blind_connection own).bind fun c c' twins => ?_
  obtain ⟨rfl, shared, -⟩ := twins
  refine blind_get.bind fun e e' mirrors => ?_
  rw [mirrors.seen shared]
  cases e.seen c with
  | error error => exact blind_throw error
  | ok db =>
    refine blind_ite (by simp) (fun _ => ?_) fun _ => blind_pure rfl
    refine (blind_set ?_).bind fun _ _ _ => blind_pure rfl
    exact mirrors.update slot (fun _ _ => rfl)
      (fun d open_ => ⟨(mirrors.shared_connection open_).file,
        (mirrors.shared_connection open_).log⟩)
      fun _ => rfl

theorem blind_requireWritable (own : first ≤ slot) :
    Blind region base r first Eq (requireWritable slot) (requireWritable slot) := by
  refine (blind_connection own).bind fun c c' twins => ?_
  obtain ⟨rfl, -, -⟩ := twins
  exact blind_ite .rfl (fun _ => blind_refuse _) fun _ => blind_pure rfl

theorem blind_commitToFile (shared : c.Shared r) (location : c.location = some at_)
    (apart : Apart region base at_) (db : Database) :
    Blind region base r first Eq (commitToFile c at_ db)
      (commitToFile (c.renumbered r) at_ db) := by
  obtain ⟨-, away⟩ := apart.place journalEnding (by simp)
  refine blind_get.bind fun e e' mirrors => ?_
  have files := mirrors.files
  have here (other : Location) (same : c.location = some other) : Apart region base other := by
    cases location.symm.trans same
    exact apart
  refine blind_guard (by rw [mirrors.isMoved shared here]) fun _ => ?_
  rw [files.permissionsAt? (files.away (apart at_ List.mem_cons_self).2)]
  cases e.files.permissionsAt? at_.path with
  | none => exact blind_refuse _
  | some mode =>
    rcases files.openAt? (files.away away) true mode with
      ⟨none, none'⟩ | ⟨journal, opened, opened', there, there', -, still⟩
    · simp only [none, none']
      exact blind_refuse _
    · simp only [there, there']
      refine blind_guard (by rw [mirrors.isHeld shared]) fun _ => ?_
      exact blind_setFiles ((still.setContent shared.file _).unlink _)

theorem blind_commitToLog (own : use.Shared r) (before after : Database) :
    Blind region base r first Eq (commitToLog slot use before after)
      (commitToLog slot (use.renumbered r) before after) := by
  refine blind_get.bind fun e e' mirrors => ?_
  refine blind_guard .rfl fun _ => ?_
  have reach : e'.reach (use.renumbered r).index = e.reach use.index := mirrors.reach own.index
  have content : e'.content (use.renumbered r).log = e.content use.log := mirrors.content own.log
  rw [reach, content]
  refine blind_set ?_
  refine ((mirrors.setContent own.log _).setReach own.index _).update slot (fun _ _ => rfl)
    (fun d open_ => ?_) fun _ => rfl
  have shared := ((mirrors.setContent own.log _).setReach own.index _).shared_connection open_
  exact ⟨shared.file, shared.log⟩

theorem blind_commit (own : first ≤ slot) (before after : Database) :
    Blind region base r first Eq (commit slot before after) (commit slot before after) := by
  refine (blind_requireWritable own).bind fun _ _ _ => ?_
  refine (blind_connection own).bind fun c c' twins => ?_
  obtain ⟨rfl, shared, apart⟩ := twins
  rw [Connection.location_renumbered, Connection.log_renumbered]
  cases location : c.location with
  | none => exact blind_modify fun e e' mirrors => mirrors.setContent shared.file _
  | some at_ =>
    cases log : c.log with
    | none => exact blind_commitToFile shared location (apart at_ location) after
    | some use => exact blind_commitToLog (shared.log use log) before after

end CobolDialects.Engine
