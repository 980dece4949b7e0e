import Mathlib
import CobolDialects.Proofs.FileSystem.Sound
import CobolDialects.Proofs.Settings.Parents
import CobolDialects.Proofs.Settings.Save

/-!
# What a set that fails leaves behind

A set that cannot read the settings touches nothing. One that fails later on has removed its
temporary file, whichever step was refused, so that all it leaves behind are directories on the way
to the file.
-/

namespace CobolDialects.Settings.File

open FileSystem

variable {refusals : Refusals} {file : Path} {fs made left after : FileSystem} {temp : Temporary}
  {settings : Members} {text key : String} {value : Json} {fault : Fault} {e : Error}

/-! ## Steps that fail -/

namespace Step

variable {α β : Type} {step : Step α} {next : α → FileSystem → Step β}

theorem andThen_eq_error : step.andThen next = (.error fault, left) ↔
    step = (.error fault, left) ∨ ∃ a mid, step = (.ok a, mid) ∧
      next a mid = (.error fault, left) := by
  obtain ⟨result, mid⟩ := step
  cases result with
  | ok a => simp [Step.andThen]
  | error other => simp [Step.andThen]

theorem refusing_eq_error {refusal : Option Fault}
    (h : refusing refusal fs step = (.error fault, left)) :
    left = fs ∨ step = (.error fault, left) := by
  cases refusal with
  | none => exact .inr h
  | some other => exact .inl (Prod.mk.inj h).2.symm

theorem cleaning_eq_error (h : cleaning temp step = (.error fault, left)) :
    ∃ mid, step = (.error fault, mid) ∧ left = mid.removeEntry temp.location := by
  obtain ⟨result, mid⟩ := step
  cases result with
  | ok a => simp [cleaning] at h
  | error other =>
    obtain ⟨same, rfl⟩ := Prod.mk.inj h
    exact ⟨mid, by rw [Except.error.inj same], rfl⟩

end Step

theorem createTemporary_eq_error {dir : Location}
    (h : createTemporary refusals file dir fs = (.error fault, left)) : left = fs := by
  rcases Step.refusing_eq_error h with same | never
  · exact same
  · cases (Prod.mk.inj never).1

theorem writeTemporary_eq_error (h : writeTemporary refusals temp text fs = (.error fault, left)) :
    left = fs.removeEntry temp.location := by
  obtain ⟨mid, failed, rfl⟩ := Step.cleaning_eq_error h
  rcases Step.refusing_eq_error failed with rfl | never
  · rfl
  · cases (Prod.mk.inj never).1

theorem syncTemporary_eq_error (h : syncTemporary refusals temp fs = (.error fault, left)) :
    left = fs.removeEntry temp.location := by
  obtain ⟨mid, failed, rfl⟩ := Step.cleaning_eq_error h
  rcases Step.refusing_eq_error failed with rfl | never
  · rfl
  · cases (Prod.mk.inj never).1

theorem publish_eq_error (h : publish refusals temp file fs = (.error fault, left)) :
    left = fs.removeEntry temp.location := by
  obtain ⟨mid, failed, rfl⟩ := Step.cleaning_eq_error h
  rcases Step.refusing_eq_error failed with rfl | refused
  · rfl
  · split at refused
    · cases (Prod.mk.inj refused).1
    · rw [(Prod.mk.inj refused).2]

/-! ## What is spared -/

/-- All that there is besides what was there is directories above the file. -/
structure Spared (file : Path) (fs after : FileSystem) : Prop where
  entry : ∀ at_, after.entry? at_ = fs.entry? at_ ∨
    fs.entry? at_ = none ∧ after.entry? at_ = some .directory ∧
      ∃ p ∈ parents file, after.find true p = .ok (at_, .directory)
  node : ∀ at_ n, fs.entry? at_ = some (.file n) → after.node? n = fs.node? n
  working : after.working = fs.working

theorem Spared.refl (file : Path) (fs : FileSystem) : Spared file fs fs :=
  ⟨fun _ => .inl rfl, fun _ _ _ => rfl, rfl⟩

/-! ## The temporary file -/

/-- All that the second file system has besides what the first one has is nodes that no entry
names. -/
structure Undone (made left : FileSystem) : Prop where
  entries : left.entries = made.entries
  node : ∀ n < made.nodes.length, left.node? n = made.node? n
  le : made.nodes.length ≤ left.nodes.length
  working : left.working = made.working

theorem Undone.refl (made : FileSystem) : Undone made made :=
  ⟨rfl, fun _ _ => rfl, Nat.le_refl _, rfl⟩

theorem Undone.entry (h : Undone made left) (at_ : Location) :
    left.entry? at_ = made.entry? at_ := by
  unfold entry?
  rw [h.entries]

/-- The second file system holds a new temporary file besides what the first one holds. -/
structure Pending (made : FileSystem) (temp : Temporary) (left : FileSystem) : Prop where
  free : made.entry? temp.location = none
  entries : left.entries =
    made.entries.filter (·.1 ≠ temp.location) ++ [(temp.location, .file temp.node)]
  fresh : temp.node = made.nodes.length
  node : ∀ n < made.nodes.length, left.node? n = made.node? n
  le : made.nodes.length ≤ left.nodes.length
  working : left.working = made.working

theorem pending_of_createTemporary {dir : Location}
    (h : createTemporary refusals file dir made = (.ok temp, left)) : Pending made temp left := by
  obtain ⟨rfl, rfl⟩ := createTemporary_eq_ok h
  have free := (freshName_spec made dir file.names.getLast?).1
  exact ⟨free, rfl, rfl, fun n lt => node?_addFile_of_lt lt, by simp, rfl⟩

theorem Pending.setContent (h : Pending made temp left) (content : Content) :
    Pending made temp (left.setContent temp.node content) where
  free := h.free
  entries := h.entries
  fresh := h.fresh
  node n lt := by
    have other : temp.node ≠ n := by
      have fresh := h.fresh
      omega
    rw [node?_setContent_of_ne _ other, h.node n lt]
  le := by simpa using h.le
  working := h.working

/-- Removing the temporary file leaves what there was before it. -/
theorem Pending.undone (h : Pending made temp left) :
    Undone made (left.removeEntry temp.location) where
  entries := by
    have unused : made.entries.filter (·.1 ≠ temp.location) = made.entries := by
      rw [List.filter_eq_self]
      intro e there
      have free := h.free
      unfold entry? at free
      rw [if_neg (ne_nil_of_free h.free), List.lookup_eq_none_iff] at free
      simpa using Ne.symm (by simpa using free e there)
    rw [removeEntry, h.entries, List.filter_append, unused, unused]
    simp
  node := h.node
  le := h.le
  working := h.working

/-! ## The whole call -/

/-- Whichever step of a save fails, its temporary file is gone. -/
theorem undone_of_save (h : save refusals file settings fs = (.error fault, left)) :
    Undone (makeParents file fs).2 left := by
  unfold save at h
  rcases Step.andThen_eq_error.mp h with parents | ⟨dir, made, parents, h⟩
  · rw [parents]
    exact .refl left
  rw [parents]
  rcases Step.andThen_eq_error.mp h with create | ⟨temp, created, create, h⟩
  · rw [createTemporary_eq_error create]
    exact .refl made
  have pending := pending_of_createTemporary create
  rcases Step.andThen_eq_error.mp h with write | ⟨_, written, write, h⟩
  · rw [writeTemporary_eq_error write]
    exact pending.undone
  obtain rfl := writeTemporary_eq_ok write
  have full := pending.setContent (.bytes (bytesOf (document settings)))
  rcases Step.andThen_eq_error.mp h with sync | ⟨_, synced, sync, h⟩
  · rw [syncTemporary_eq_error sync]
    exact full.undone
  obtain rfl := syncTemporary_eq_ok sync
  rw [publish_eq_error h]
  exact full.undone

/-- Whichever step of a save fails, what there was is still there, and there is no new file. -/
theorem spared_of_save (sound : fs.Sound)
    (h : save refusals file settings fs = (.error fault, left)) : Spared file fs left := by
  have deepened := @deepened_makeParents file fs
  have undone := undone_of_save h
  refine ⟨fun at_ => ?_, fun at_ n there => ?_, undone.working.trans deepened.working⟩
  · rw [undone.entry]
    refine (deepened.entry at_).imp_right fun ⟨free, new, p, inside, way⟩ => ?_
    have extends_ : left.Extends (makeParents file fs).2 := fun at_ entry there =>
      (undone.entry at_).trans there
    exact ⟨free, new, p, inside, extends_.find undone.working way⟩
  · have lt := sound.lt_of_entry there
    rw [← deepened.nodes] at lt
    rw [undone.node n lt, node?, node?, deepened.nodes]

/-- A set that fails to read the settings changes nothing at all. One that fails to write them,
which it does with a fault of the file system, keeps every entry and every file as it was, and adds
none but missing directories above the settings file. -/
theorem set_fails (sound : fs.Sound) (failed : (set refusals file key value fs).result = .error e)
    (state : (set refusals file key value fs).state = after) :
    Spared file fs after ∧
      (load file key fs = .error e ∧ after = fs ∨
        ∃ settings fault, load file key fs = .ok settings ∧ e = .io fault) := by
  subst state
  unfold set at failed ⊢
  cases read : load file key fs with
  | error cause =>
    rw [read] at failed
    obtain rfl : cause = e := Except.error.inj failed
    exact ⟨.refl file fs, .inl ⟨rfl, rfl⟩⟩
  | ok settings =>
    simp only [read] at failed ⊢
    cases saving : save refusals file (settings.upsert key value) fs with
    | mk result left =>
      cases result with
      | ok done => simp [saving] at failed
      | error fault =>
        rw [saving] at failed
        simp only
        exact ⟨spared_of_save sound saving,
          .inr ⟨settings, fault, rfl, (Except.error.inj failed).symm⟩⟩

/-- Two directories that were missing stay behind when the disk does not take the file. -/
theorem set_fails_at_sync :
    let set := set ⟨none, none, some (.other "disk"), none⟩ (bytesOf "a/b/s") "k" .null empty
    set.result = .error (.io (.other "disk")) ∧ Spared (bytesOf "a/b/s") empty set.state ∧
      set.state.entries =
        [([bytesOf "a"], .directory), ([bytesOf "a", bytesOf "b"], .directory)] := by
  have failed : (set ⟨none, none, some (.other "disk"), none⟩ (bytesOf "a/b/s") "k" .null
      empty).result = .error (.io (.other "disk")) := by cbv
  exact ⟨failed, (set_fails sound_empty failed rfl).1, by cbv⟩

end CobolDialects.Settings.File
