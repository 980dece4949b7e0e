import CobolDialects.Engine.Statement
import CobolDialects.Proofs.Engine.Sound
import CobolDialects.Proofs.FileSystem.MirroredCalls
import Mathlib.Data.List.Find

/-!
# Engines that mirror one another

Two engines have the same connections, but for the numbers of the files that these hold on to, and
their file systems mirror one another. A connection whose database lies away from the region, with
all that may be beside it, learns the same from both.
-/

namespace CobolDialects

open Database

/-! ## What holds on to files -/

def LogUse.renumbered (r : Renumbering) (use : LogUse) : LogUse :=
  { use with log := r.number use.log, index := r.number use.index }

structure LogUse.Shared (r : Renumbering) (use : LogUse) : Prop where
  log : use.log ∈ r.shared
  index : use.index ∈ r.shared

def Connection.renumbered (r : Renumbering) (c : Connection) : Connection :=
  { c with file := r.number c.file, log := c.log.map (LogUse.renumbered r) }

structure Connection.Shared (r : Renumbering) (c : Connection) : Prop where
  file : c.file ∈ r.shared
  log : ∀ use, c.log = some use → use.Shared r

namespace Connection

variable {r : Renumbering} {c : Connection}

@[simp] theorem file_renumbered : (c.renumbered r).file = r.number c.file := rfl

@[simp] theorem log_renumbered : (c.renumbered r).log = c.log.map (LogUse.renumbered r) := rfl

@[simp] theorem location_renumbered : (c.renumbered r).location = c.location := rfl

@[simp] theorem process_renumbered : (c.renumbered r).process = c.process := rfl

@[simp] theorem system_renumbered : (c.renumbered r).system = c.system := rfl

@[simp] theorem readOnly_renumbered : (c.renumbered r).readOnly = c.readOnly := rfl

@[simp] theorem immutable_renumbered : (c.renumbered r).immutable = c.immutable := rfl

@[simp] theorem indexReadOnly_renumbered : (c.renumbered r).indexReadOnly = c.indexReadOnly := rfl

@[simp] theorem supportsLog_renumbered : (c.renumbered r).supportsLog = c.supportsLog := rfl

@[simp] theorem known_renumbered : (c.renumbered r).known = c.known := rfl

end Connection

def NamedDatabase.renumbered (r : Renumbering) (d : NamedDatabase) : NamedDatabase :=
  { d with file := r.number d.file }

theorem Renumbering.number_eq_iff {r : Renumbering} {m n : Nat} (shared : m ∈ r.shared)
    (shared' : n ∈ r.shared) : r.number m = r.number n ↔ m = n :=
  ⟨r.injective m shared n shared', congrArg r.number⟩

namespace Engine

variable {region : Set Location} {base fs fs' : FileSystem} {r : Renumbering} {first i n : Nat}
  {e e' : Engine} {c : Connection} {at_ : Location} {use : LogUse}

/-- Where an engine may look for something that has to do with the database at a location. -/
def besides (at_ : Location) : List Location :=
  at_ :: [logEnding, indexEnding, journalEnding, lockEnding].map (Location.beside at_)

/-- A database and all that may be beside it lie away from the region. -/
def Apart (region : Set Location) (base : FileSystem) (at_ : Location) : Prop :=
  ∀ place ∈ besides at_, place ∉ region ∧ base.Away region place.path

/-- The engines differ in the region, and in the numbers of files. From some slot on all connections
are to databases that lie away from the region. -/
structure Mirrors (region : Set Location) (base : FileSystem) (r : Renumbering) (first : Nat)
    (e e' : Engine) : Prop where
  files : FileSystem.Mirrors region base r e.files e'.files
  connections : e'.connections = e.connections.map (Option.map (Connection.renumbered r))
  named : e'.named = e.named.map (NamedDatabase.renumbered r)
  process : e'.process = e.process
  shared : ∀ c, some c ∈ e.connections → c.Shared r
  sharedNamed : ∀ d ∈ e.named, d.file ∈ r.shared
  fewer : first ≤ e.connections.length
  apart : ∀ i c at_, first ≤ i → e.connection? i = some c → c.location = some at_ →
    Apart region base at_

namespace Mirrors

/-! ## What is asked of an engine -/

theorem connection? (h : Mirrors region base r first e e') (i : Nat) :
    e'.connection? i = (e.connection? i).map (Connection.renumbered r) := by
  unfold Engine.connection?
  rw [h.connections, List.getD_eq_getElem?_getD, List.getD_eq_getElem?_getD, List.getElem?_map]
  cases e.connections[i]? <;> rfl

theorem shared_connection (h : Mirrors region base r first e e')
    (open_ : e.connection? i = some c) :
    c.Shared r := h.shared c (mem_of_connection? open_)

theorem openConnections (h : Mirrors region base r first e e') :
    e'.openConnections = e.openConnections.map (Connection.renumbered r) := by
  unfold Engine.openConnections
  rw [h.connections, List.filterMap_map, List.map_filterMap]
  rfl

theorem shared_open (h : Mirrors region base r first e e') (there : c ∈ e.openConnections) :
    c.Shared r := by
  obtain ⟨c?, inside, same⟩ := List.mem_filterMap.mp there
  obtain rfl : c? = some c := same
  exact h.shared c inside

/-- Whether there is a connection with some property that it has in both engines. -/
theorem any_open (h : Mirrors region base r first e e') {p p' : Connection → Bool}
    (same : ∀ c, c.Shared r → p' (c.renumbered r) = p c) :
    e'.openConnections.any p' = e.openConnections.any p := by
  rw [h.openConnections, List.any_map, Bool.eq_iff_iff, List.any_eq_true, List.any_eq_true]
  refine exists_congr fun c => and_congr_right fun there => ?_
  rw [Function.comp_apply, same c (h.shared_open there)]

/-- The first connection with such a property. -/
theorem find_open (h : Mirrors region base r first e e') {p p' : Connection → Bool}
    (same : ∀ c, c.Shared r → p' (c.renumbered r) = p c) :
    e'.openConnections.find? p' = (e.openConnections.find? p).map (Connection.renumbered r) := by
  rw [h.openConnections, List.find?_map]
  congr 1
  exact List.find?_congr fun c there => same c (h.shared_open there)

theorem content (h : Mirrors region base r first e e') (shared : n ∈ r.shared) :
    e'.content (r.number n) = e.content n := by
  rw [Engine.content, h.files.node n shared, Engine.content]

theorem reach (h : Mirrors region base r first e e') (shared : n ∈ r.shared) :
    e'.reach (r.number n) = e.reach n := by
  rw [Engine.reach, h.content shared, Engine.reach]

theorem isVoid (h : Mirrors region base r first e e') (shared : n ∈ r.shared) :
    e'.isVoid (r.number n) = e.isVoid n := by
  rw [Engine.isVoid, h.files.contentOf shared, Engine.isVoid]

theorem asksForLog (h : Mirrors region base r first e e') (shared : n ∈ r.shared) :
    e'.asksForLog (r.number n) = e.asksForLog n := by
  rw [Engine.asksForLog, h.content shared, Engine.asksForLog]

theorem hasLogger (h : Mirrors region base r first e e') (shared : n ∈ r.shared) :
    e'.hasLogger (r.number n) = e.hasLogger n :=
  h.any_open fun c own => by
    simp only [Connection.renumbered, r.number_eq_iff own.file shared, Option.isSome_map]

theorem isOpen (h : Mirrors region base r first e e') (shared : n ∈ r.shared) :
    e'.isOpen (r.number n) = e.isOpen n :=
  h.any_open fun c own => by simp only [Connection.renumbered, r.number_eq_iff own.file shared]

theorem isHeld (h : Mirrors region base r first e e') (shared : c.Shared r) :
    e'.isHeld (c.renumbered r) = e.isHeld c := by
  unfold Engine.isHeld
  exact congrArg _ (h.hasLogger shared.file)

theorem isBarred (h : Mirrors region base r first e e') (shared : c.Shared r) :
    e'.isBarred (c.renumbered r) = e.isBarred c := by
  unfold Engine.isBarred
  refine congrArg _ (h.any_open fun d own => ?_)
  simp only [Connection.renumbered, r.number_eq_iff own.file shared.file, Option.isSome_map]
  rfl

theorem any_index {use? : Option LogUse} (log : ∀ use, use? = some use → use.Shared r)
    (shared : n ∈ r.shared) :
    (use?.map (LogUse.renumbered r)).any (·.index = r.number n) = use?.any (·.index = n) := by
  cases use? with
  | none => rfl
  | some use =>
    simp only [Option.map_some, Option.any_some, LogUse.renumbered,
      r.number_eq_iff (log use rfl).index shared]

theorem isForeign (h : Mirrors region base r first e e') (shared : n ∈ r.shared) :
    e'.isForeign (c.renumbered r) (r.number n) = e.isForeign c n :=
  h.any_open fun d own => by
    simp only [Connection.renumbered, any_index own.log shared]
    rfl

theorem isMoved (h : Mirrors region base r first e e') (shared : c.Shared r)
    (apart : ∀ at_, c.location = some at_ → Apart region base at_) :
    e'.isMoved (c.renumbered r) = e.isMoved c := by
  unfold Engine.isMoved
  cases location : c.location with
  | none => simp [Connection.renumbered, location]
  | some at_ =>
    have away := h.files.away (apart at_ location at_ List.mem_cons_self).2
    simp only [Connection.renumbered, location, h.isVoid shared.file,
      h.files.leadsTo away shared.file, Option.isNone_map]

theorem named? (h : Mirrors region base r first e e') (name : Bytes) :
    e'.named? name = (e.named? name).map (NamedDatabase.renumbered r) := by
  unfold Engine.named?
  rw [h.named, List.find?_map, h.process]
  rfl

theorem throughLog (h : Mirrors region base r first e e') (file : n ∈ r.shared)
    (log : use.Shared r) :
    e'.throughLog (r.number n) (use.renumbered r) = e.throughLog n use := by
  unfold Engine.throughLog LogUse.renumbered
  simp only [h.content log.log, h.reach log.index, h.content file]

theorem besideLog (h : Mirrors region base r first e e') (shared : n ∈ r.shared)
    (cached : Option Database) :
    e'.besideLog (r.number n) cached = e.besideLog n cached := by
  unfold Engine.besideLog
  rw [h.content shared]

theorem seen (h : Mirrors region base r first e e') (shared : c.Shared r) :
    e'.seen (c.renumbered r) = e.seen c := by
  unfold Engine.seen
  cases log : c.log with
  | none =>
    simp only [Connection.renumbered, log, Option.map_none, h.content shared.file]
    cases c.cached <;> rfl
  | some use =>
    have own := shared.log use log
    simp only [Connection.renumbered, log, Option.map_some, LogUse.renumbered, h.reach own.index,
      h.besideLog shared.file]
    rw [← LogUse.renumbered, h.throughLog shared.file own]

/-! ## Changes -/

theorem setFiles (h : Mirrors region base r first e e')
    (files : FileSystem.Mirrors region base r fs fs') :
    Mirrors region base r first (e.setFiles fs) (e'.setFiles fs') :=
  { h with files }

theorem setContent (h : Mirrors region base r first e e') (shared : n ∈ r.shared)
    (content : Content) :
    Mirrors region base r first (e.setContent n content) (e'.setContent (r.number n) content) :=
  h.setFiles (h.files.setContent shared content)

/-- All connections are changed, each of them in both engines alike. -/
theorem mapConnections (h : Mirrors region base r first e e') {f f' : Connection → Connection}
    (same : ∀ c, c.Shared r → f' (c.renumbered r) = (f c).renumbered r)
    (shared : ∀ c, c.Shared r → (f c).Shared r) (location : ∀ c, (f c).location = c.location) :
    Mirrors region base r first { e with connections := e.connections.map (Option.map f) }
      { e' with connections := e'.connections.map (Option.map f') } where
  files := h.files
  connections := by
    show e'.connections.map _ = (e.connections.map _).map _
    rw [h.connections, List.map_map, List.map_map]
    refine List.map_congr_left fun c? there => ?_
    cases c? with
    | none => rfl
    | some c => exact congrArg some (same c (h.shared c there))
  named := h.named
  process := h.process
  shared c there := by
    obtain ⟨c?, old, new⟩ := List.mem_map.mp there
    obtain ⟨c', rfl, rfl⟩ := Option.map_eq_some_iff.mp new
    exact shared c' (h.shared c' old)
  sharedNamed := h.sharedNamed
  fewer := by simpa using h.fewer
  apart i c at_ le open_ there := by
    have old : (e.connection? i).map f = some c := by
      rw [← open_, Engine.connection?, Engine.connection?, List.getD_eq_getElem?_getD,
        List.getD_eq_getElem?_getD, List.getElem?_map]
      cases e.connections[i]? <;> rfl
    obtain ⟨c', before, rfl⟩ := Option.map_eq_some_iff.mp old
    exact h.apart i c' at_ le before ((location c').symm.trans there)

theorem update (h : Mirrors region base r first e e') (i : Nat) {f f' : Connection → Connection}
    (same : ∀ c, e.connection? i = some c → f' (c.renumbered r) = (f c).renumbered r)
    (shared : ∀ c, e.connection? i = some c → (f c).Shared r)
    (location : ∀ c, (f c).location = c.location) :
    Mirrors region base r first (e.update i f) (e'.update i f') where
  files := h.files
  connections := by
    show e'.connections.modify i _ = (e.connections.modify i _).map _
    rw [h.connections]
    refine List.ext_getElem? fun j => ?_
    rw [List.getElem?_modify, List.getElem?_map, List.getElem?_map, List.getElem?_modify]
    cases there : e.connections[j]? with
    | none => rfl
    | some c? =>
      simp only [Option.map_some, Option.map_eq_map]
      split_ifs with here
      · subst here
        cases c? with
        | none => rfl
        | some c =>
          simp only [Option.map_some, same c (connection?_eq_some.mpr there)]
      · rfl
  named := h.named
  process := h.process
  shared c there := by
    obtain ⟨j, found⟩ := mem_connections.mp there
    rw [connection?_update_eq] at found
    split_ifs at found with here
    · subst here
      obtain ⟨c', open_, rfl⟩ := Option.map_eq_some_iff.mp found
      exact shared c' open_
    · exact h.shared_connection found
  sharedNamed := h.sharedNamed
  fewer := by simpa [Engine.update] using h.fewer
  apart j c at_ le open_ there := by
    rw [connection?_update_eq] at open_
    split_ifs at open_ with here
    · subst here
      obtain ⟨c', before, rfl⟩ := Option.map_eq_some_iff.mp open_
      exact h.apart i c' at_ le before ((location c').symm.trans there)
    · exact h.apart j c at_ le open_ there

theorem setReach (h : Mirrors region base r first e e') (shared : n ∈ r.shared) (reach : Nat) :
    Mirrors region base r first (e.setReach n reach) (e'.setReach (r.number n) reach) := by
  refine (h.setContent shared (.logIndex reach)).mapConnections (fun c own => ?_) (fun c own => ?_)
    fun c => ?_
  · simp only [Connection.renumbered, any_index own.log shared]
    split_ifs <;> rfl
  · split_ifs
    · exact ⟨own.file, own.log⟩
    · exact own
  · split_ifs <;> rfl

theorem addConnection (h : Mirrors region base r first e e') (shared : c.Shared r)
    (apart : ∀ at_, c.location = some at_ → Apart region base at_) :
    Mirrors region base r first (e.addConnection c) (e'.addConnection (c.renumbered r)) where
  files := h.files
  connections := by
    show e'.connections ++ _ = (e.connections ++ _).map _
    rw [h.connections, List.map_append]
    rfl
  named := h.named
  process := h.process
  shared c' there := by
    rcases List.mem_append.mp there with old | new
    · exact h.shared c' old
    · obtain rfl := Option.some.inj (List.mem_singleton.mp new)
      exact shared
  sharedNamed := h.sharedNamed
  fewer := by
    have fewer := h.fewer
    simp only [Engine.addConnection, List.length_append]
    omega
  apart i c' at_ le open_ there := by
    rw [Engine.connection?, Engine.addConnection, List.getD_eq_getElem?_getD,
      List.getElem?_append] at open_
    split_ifs at open_ with old
    · refine h.apart i c' at_ le ?_ there
      rwa [Engine.connection?, List.getD_eq_getElem?_getD]
    · rw [List.getElem?_singleton] at open_
      split_ifs at open_
      · obtain rfl := Option.some.inj open_
        exact apart at_ there
      · cases open_

/-- A connection is given up. -/
theorem without (h : Mirrors region base r first e e') (i : Nat) :
    Mirrors region base r first { e with connections := e.connections.set i none }
      { e' with connections := e'.connections.set i none } where
  files := h.files
  connections := by
    show e'.connections.set i _ = (e.connections.set i _).map _
    rw [h.connections, List.map_set]
    rfl
  named := h.named
  process := h.process
  shared c there := h.shared c ((List.mem_or_eq_of_mem_set there).resolve_right nofun)
  sharedNamed := h.sharedNamed
  fewer := by simpa using h.fewer
  apart j c at_ le open_ there := by
    refine h.apart j c at_ le ?_ there
    by_cases here : i = j
    · subst here
      rw [Engine.connection?, List.getD_eq_getElem?_getD, List.getElem?_set_self'] at open_
      cases old : e.connections[i]? <;> simp [old] at open_
    · rwa [Engine.connection?, List.getD_eq_getElem?_getD, List.getElem?_set_ne here,
        ← List.getD_eq_getElem?_getD] at open_

end Mirrors

end Engine

end CobolDialects
