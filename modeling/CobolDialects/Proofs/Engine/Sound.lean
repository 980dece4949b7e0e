import CobolDialects.Engine.Settling
import CobolDialects.Proofs.FileSystem.Sound

/-!
# Sound engines

In a sound engine whatever a connection holds on to is there, and a connection remembers a database
only if it relies on it that nobody changes it, or is told by the index of a log.
-/

namespace CobolDialects

structure Connection.Sound (c : Connection) (nodes : Nat) : Prop where
  file : c.file < nodes
  index : ∀ use, c.log = some use → use.index < nodes
  memory : c.location = none → c.log = none
  immutable : c.immutable → c.readOnly
  cached : c.cached.isSome → c.immutable ∨ c.log.isSome

theorem Connection.Sound.mono {c : Connection} {nodes more : Nat} (h : c.Sound nodes)
    (le : nodes ≤ more) : c.Sound more where
  file := Nat.lt_of_lt_of_le h.file le
  index use there := Nat.lt_of_lt_of_le (h.index use there) le
  memory := h.memory
  immutable := h.immutable
  cached := h.cached

/-- A connection that can write, and takes part in no log, remembers no database. -/
theorem Connection.Sound.cached_eq_none {c : Connection} {nodes : Nat} (h : c.Sound nodes)
    (writable : c.readOnly = false) (unlogged : c.log = none) : c.cached = none := by
  by_contra read
  rcases h.cached (Option.isSome_iff_ne_none.mpr read) with immutable | logged
  · rw [h.immutable immutable] at writable
    cases writable
  · rw [unlogged] at logged
    cases logged

namespace Engine

structure Sound (e : Engine) : Prop where
  files : e.files.Sound
  connections : ∀ c, some c ∈ e.connections → c.Sound e.files.nodes.length
  named : ∀ d ∈ e.named, d.file < e.files.nodes.length

theorem sound_onFiles {fs : FileSystem} (h : fs.Sound) : (onFiles fs).Sound where
  files := h
  connections c there := by cases there
  named d there := by cases there

variable {e : Engine} {fs : FileSystem} {slot n index : Nat} {c : Connection}

theorem connection?_eq_some :
    e.connection? slot = some c ↔ e.connections[slot]? = some (some c) := by
  rw [connection?, List.getD_eq_getElem?_getD]
  cases e.connections[slot]? <;> simp

theorem mem_connections : some c ∈ e.connections ↔ ∃ slot, e.connection? slot = some c := by
  simp only [List.mem_iff_getElem?, connection?_eq_some]

theorem mem_of_connection? (h : e.connection? slot = some c) : some c ∈ e.connections :=
  mem_connections.mpr ⟨slot, h⟩

theorem Sound.connection (h : e.Sound) (open_ : e.connection? slot = some c) :
    c.Sound e.files.nodes.length :=
  h.connections c (mem_of_connection? open_)

/-! ## Changes of the files -/

theorem Sound.setFiles (h : e.Sound) (files : fs.Sound)
    (le : e.files.nodes.length ≤ fs.nodes.length) : (e.setFiles fs).Sound where
  files := files
  connections c there := (h.connections c there).mono le
  named d there := Nat.lt_of_lt_of_le (h.named d there) le

theorem Sound.setContent (h : e.Sound) (n : Nat) (content : Content) :
    (e.setContent n content).Sound :=
  h.setFiles (h.files.setContent n content) (Nat.le_of_eq (by simp))

@[simp] theorem connection?_setFiles : (e.setFiles fs).connection? slot = e.connection? slot := rfl

@[simp] theorem connection?_setContent (written : Content) :
    (e.setContent n written).connection? slot = e.connection? slot := rfl

/-- A file that is there holds what is written to it. -/
theorem content_setContent (there : n < e.files.nodes.length) (written : Content) :
    (e.setContent n written).content n = written := by
  have found : e.files.node? n = some e.files.nodes[n] := List.getElem?_eq_getElem there
  rw [Engine.content, setContent, setFiles, FileSystem.node?_setContent, found]
  simp

/-! ## Changes of the connections -/

@[simp] theorem connection?_update (f : Connection → Connection) :
    (e.update slot f).connection? slot = (e.connection? slot).map f := by
  unfold connection? update
  rw [List.getD_eq_getElem?_getD, List.getD_eq_getElem?_getD, List.getElem?_modify]
  cases e.connections[slot]? <;> simp

theorem connection?_update_eq (f : Connection → Connection) (other : Nat) :
    (e.update slot f).connection? other =
      if slot = other then (e.connection? other).map f else e.connection? other := by
  unfold Engine.connection? Engine.update
  rw [List.getD_eq_getElem?_getD, List.getD_eq_getElem?_getD, List.getElem?_modify]
  split_ifs <;> cases e.connections[other]? <;> rfl

theorem Sound.update (h : e.Sound) (f : Connection → Connection)
    (sound : ∀ c, e.connection? slot = some c → (f c).Sound e.files.nodes.length) :
    (e.update slot f).Sound where
  files := h.files
  named := h.named
  connections c there := by
    obtain ⟨i, found⟩ := mem_connections.mp there
    rw [connection?_update_eq] at found
    split_ifs at found with same
    · subst same
      obtain ⟨c', open_, rfl⟩ := Option.map_eq_some_iff.mp found
      exact sound c' open_
    · exact h.connection found

/-- The connection as it is when an index it may use has been set. -/
def reread (index : Nat) (c : Connection) : Connection :=
  if c.log.any (·.index = index) then { c with cached := none } else c

@[simp] theorem log_reread : (reread index c).log = c.log := by
  unfold reread
  split_ifs <;> rfl

theorem remembering_reread (db : Database) :
    { reread index c with cached := some db } = { c with cached := some db } := by
  unfold reread
  split_ifs <;> rfl

@[simp] theorem connection?_setReach (reach : Nat) :
    (e.setReach index reach).connection? slot = (e.connection? slot).map (reread index) := by
  unfold connection? setReach reread
  rw [List.getD_eq_getElem?_getD, List.getD_eq_getElem?_getD, List.getElem?_map]
  cases e.connections[slot]? <;> rfl

theorem Sound.setReach (h : e.Sound) (index reach : Nat) : (e.setReach index reach).Sound where
  files := (h.setContent index (.logIndex reach)).files
  named := (h.setContent index (.logIndex reach)).named
  connections c there := by
    obtain ⟨c?, old, new⟩ := List.mem_map.mp there
    obtain ⟨c', rfl, rfl⟩ := Option.map_eq_some_iff.mp new
    have sound := (h.setContent index (.logIndex reach)).connections c' old
    split_ifs
    · exact { sound with cached := fun absurd => by cases absurd }
    · exact sound

/-- An index that is there reaches as far as was set. -/
theorem reach_setReach (there : index < e.files.nodes.length) (reach : Nat) :
    (e.setReach index reach).reach index = reach := by
  have content : (e.setReach index reach).content index = .logIndex reach :=
    content_setContent there _
  rw [Engine.reach, content]

theorem Sound.addConnection (h : e.Sound) (sound : c.Sound e.files.nodes.length) :
    (e.addConnection c).Sound where
  files := h.files
  named := h.named
  connections c' there := by
    rcases List.mem_append.mp there with old | new
    · exact h.connections c' old
    · obtain rfl := Option.some.inj (List.mem_singleton.mp new)
      exact sound

@[simp] theorem connection?_addConnection :
    (e.addConnection c).connection? e.connections.length = some c := by
  simp [connection?, Engine.addConnection, List.getD_eq_getElem?_getD]

/-! ## Quiet changes -/

/-- Some entries of the file system may be gone, and nothing else has changed. -/
structure Quiet (e after : Engine) : Prop where
  same : after = e.setFiles after.files
  nodes : after.files.nodes = e.files.nodes
  sound : after.Sound
  fewer : e.files.Extends after.files
  working : after.files.working = e.files.working

theorem Quiet.refl (h : e.Sound) : e.Quiet e := ⟨rfl, rfl, h, .refl _, rfl⟩

theorem Quiet.trans {after last : Engine} (h : e.Quiet after) (h' : after.Quiet last) :
    e.Quiet last where
  same := by rw [h'.same, h.same]; rfl
  nodes := h'.nodes.trans h.nodes
  sound := h'.sound
  fewer := h.fewer.trans h'.fewer
  working := h'.working.trans h.working

theorem quiet_unlink (h : e.Sound) (at_ : Location) :
    e.Quiet (e.setFiles (e.files.unlink at_)) where
  same := rfl
  nodes := FileSystem.nodes_unlink
  sound := h.setFiles (h.files.unlink at_) (Nat.le_of_eq (congrArg _ FileSystem.nodes_unlink.symm))
  fewer := FileSystem.extends_unlink e.files at_
  working := FileSystem.working_unlink

variable {after : Engine}

theorem Quiet.connection? (h : e.Quiet after) : after.connection? slot = e.connection? slot := by
  rw [h.same]
  rfl

theorem Quiet.content (h : e.Quiet after) : after.content n = e.content n := by
  rw [Engine.content, Engine.content, FileSystem.node?, FileSystem.node?, h.nodes]

end Engine

end CobolDialects
