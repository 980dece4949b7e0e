import CobolDialects.Proofs.FileSystem.Enclosing
import CobolDialects.Proofs.Settings.Failure

/-!
# Saving again

Of a save that comes after another one the result is the same, whether the other one has failed, and
has made directories at most, or has put its document in place. This holds for a settings file that
is missing or holds text, unless reading it gives something else as soon as there are the
directories above it.
-/

namespace CobolDialects.Settings.File

open FileSystem

variable {refusals : Refusals} {file dir : Path} {fs made left saved : FileSystem} {at_ : Location}
  {settings : Members} {fault : Fault}

/-! ## Directories that are there -/

/-- The directory above the file is there. -/
def Housed (file : Path) (fs : FileSystem) : Prop :=
  ∀ dir, file.directory? = some dir → fs.isDirectory dir = true

theorem Housed.makeParents (h : Housed file fs) :
    makeParents file fs = (fs.directory (file.directory?.getD Path.dot), fs) := by
  cases directory : file.directory? with
  | none => exact makeParents_of_none directory
  | some dir =>
    have made : fs.makeChain (chain dir) = (.ok (), fs) :=
      makeChain_of_isDirectory (h dir directory) _
    rw [makeParents_of_some directory, made]
    rfl

theorem directory_eq_ok :
    fs.directory dir = .ok at_ ↔ fs.find true dir = .ok (at_, .directory) := by
  unfold directory
  cases fs.find true dir with
  | error e => simp
  | ok found =>
    obtain ⟨there, entry⟩ := found
    cases entry <;> simp

theorem housed_of_makeParents (h : makeParents file fs = (.ok at_, made)) : Housed file made := by
  intro dir directory
  rw [makeParents_of_some directory] at h
  split at h
  · cases (Prod.mk.inj h).1
  · obtain ⟨found, rfl⟩ := Prod.mk.inj h
    exact isDirectory_iff.mpr ⟨at_, directory_eq_ok.mp found⟩

theorem Housed.exists_directory (h : Housed file fs) :
    ∃ at_, fs.directory (file.directory?.getD Path.dot) = .ok at_ := by
  cases directory : file.directory? with
  | none =>
    refine ⟨fs.working, directory_eq_ok.mpr (find_eq_ok.mpr ⟨by decide, ?_⟩)⟩
    have steps : Path.steps Path.dot = [Path.dot] := by decide
    rw [Option.getD_none, steps, walkLinks_dot, walkLinks_nil]
    rfl
  | some dir =>
    obtain ⟨at_, found⟩ := isDirectory_iff.mp (h dir directory)
    exact ⟨at_, directory_eq_ok.mpr found⟩

/-! ## Before the save -/

/-- What a save can rely on: the settings file is missing or holds text, and so it is if there are
the directories above it. -/
structure Standing (file : Path) (fs : FileSystem) : Prop where
  sound : fs.Sound
  readable : fs.readText file = .error .notFound ∨ ∃ text, fs.readText file = .ok text
  kept : (makeParents file fs).2.readText file = fs.readText file

theorem sound_makeParents (sound : fs.Sound) : (makeParents file fs).2.Sound := by
  have grown := @grown_makeParents file fs
  exact sound.of_subset (Nat.le_of_eq (congrArg _ grown.nodes).symm) grown.files

theorem readText_of_fileNode {e : Fault} (h : fs.fileNode file = .error e) :
    fs.readText file = .error e := by
  simp only [FileSystem.readText, FileSystem.read, h, Except.map]

theorem readText_of_checkPath {e : Fault} (h : checkPath file = .error e) :
    fs.readText file = .error e := by
  refine readText_of_fileNode ?_
  unfold fileNode find lookup
  rw [h]
  rfl

namespace Standing

/-- Nothing but that it is missing keeps the settings file from being read. -/
theorem eq_notFound (h : Standing file fs) {e : Fault} (failed : fs.readText file = .error e) :
    e = .notFound := by
  rcases h.readable with missing | ⟨text, read⟩
  · exact Except.error.inj (failed.symm.trans missing)
  · cases failed.symm.trans read

theorem checkPath (h : Standing file fs) (directory : file.directory? = some dir) :
    checkPath file = .ok () := by
  have some : file ≠ [] := by
    rintro rfl
    exact (Path.directory?_eq_some directory).1 (by decide)
  cases check : FileSystem.checkPath file with
  | ok => rfl
  | error e =>
    obtain rfl := h.eq_notFound (readText_of_checkPath check)
    unfold FileSystem.checkPath at check
    split_ifs at check
    · cases check
    · cases check

/-- The directories above the file are made once and for all. -/
theorem makeParents_made (h : Standing file fs) :
    makeParents file (makeParents file fs).2 = makeParents file fs := by
  rcases @makeParents_again file fs with same | ⟨dir, e, directory, ne, site, -⟩
  · exact same
  · have refused := readText_of_fileNode
      (fileNode_of_site directory (h.checkPath directory) site ne)
    exact absurd (h.eq_notFound (h.kept.symm.trans refused)) ne

theorem not_circular (h : Standing file fs) : ¬Circular (makeParents file fs).2 file := by
  intro circular
  rcases circular.fileNode with never | never
  · cases h.eq_notFound (h.kept.symm.trans (readText_of_fileNode never))
  · cases h.eq_notFound (h.kept.symm.trans (readText_of_fileNode never))

theorem sound_made (h : Standing file fs) : (makeParents file fs).2.Sound :=
  sound_makeParents h.sound

end Standing

/-! ## Behind a save that has failed -/

theorem clear_nothing (fs : FileSystem) : Clear (fun _ => False) fs := ⟨id, fun _ _ _ _ _ => id⟩

theorem visible_nothing (names : List Name) : Visible (fun _ => False) names := fun _ _ => id

/-- With the same entries and the same nodes behind them, the same is read. -/
theorem readText_of_alike {p : Path} (alike : Alike (fun _ => False) left made)
    (node : ∀ n < made.nodes.length, left.node? n = made.node? n) (sound : made.Sound) :
    left.readText p = made.readText p := by
  have found : left.fileNode p = made.fileNode p :=
    alike.fileNode (clear_nothing made) (visible_nothing _)
  unfold FileSystem.readText FileSystem.read
  rw [found]
  cases there : made.fileNode p with
  | error e => rfl
  | ok n => simp only [Except.map, contentOf_congr (node n (sound.lt_of_fileNode there))]

theorem Undone.alike (h : Undone made left) : Alike (fun _ => False) left made :=
  ⟨fun _ _ _ => h.entry _, h.working⟩

theorem Undone.sound (h : Undone made left) (sound : made.Sound) : left.Sound :=
  sound.of_subset h.le fun _ _ there => h.entries ▸ there

/-- New files have the same names, and there is room for them at the same paths. -/
theorem Undone.room (h : Undone made left) (dir : Location) :
    (ready file "" dir left).room file = (ready file "" dir made).room file := by
  have location : temporaryAt file dir left = temporaryAt file dir made := by
    simp only [temporaryAt, freshName, h.entry, h.entries]
  refine SameKinds.room ⟨fun at_ => ?_, h.working⟩
  rw [entry?_ready, entry?_ready, location, h.entry]
  split_ifs <;> rfl

theorem save_result_of_error (h : makeParents file fs = (.error fault, made)) (refusals : Refusals)
    (settings : Members) : (save refusals file settings fs).1 = .error fault := by
  rw [save, h]
  rfl

/-- A save that has failed leaves everything as it needs to be for the next one, which fails or
succeeds as it would have done before. -/
theorem Standing.undone (h : Standing file fs) (undone : Undone (makeParents file fs).2 left) :
    Standing file left ∧ left.readText file = fs.readText file ∧
      ∀ refusals settings,
        (save refusals file settings left).1 = (save refusals file settings fs).1 := by
  have read : left.readText file = fs.readText file :=
    (readText_of_alike undone.alike undone.node h.sound_made).trans h.kept
  obtain ⟨result, alike⟩ := alike_makeParents undone.alike (clear_nothing _)
    (visible_nothing file.names)
  rw [h.makeParents_made] at result alike
  refine ⟨⟨undone.sound h.sound_made, read ▸ h.readable, ?_⟩, read, fun refusals settings => ?_⟩
  · have nodes := (@grown_makeParents file left).nodes
    have again : (makeParents file left).2.readText file = (makeParents file fs).2.readText file :=
      readText_of_alike alike
        (fun n lt => by rw [node?, nodes]; exact undone.node n lt) h.sound_made
    rw [again, h.kept, read]
  · cases parents : makeParents file fs with
    | mk outcome made =>
      rw [parents] at result undone
      cases outcome with
      | error fault =>
        have parents' : makeParents file left = (.error fault, (makeParents file left).2) :=
          Prod.ext result rfl
        rw [save_result_of_error parents, save_result_of_error parents']
      | ok dir =>
        have housed : Housed file left := fun p directory => by
          rw [undone.alike.isDirectory (clear_nothing made) (visible_nothing _)]
          exact housed_of_makeParents parents p directory
        have parents' : makeParents file left = (.ok dir, left) :=
          Prod.ext result (by rw [housed.makeParents])
        rw [save_result_of_parents parents, save_result_of_parents parents', undone.room]

/-! ## Behind a save that has succeeded -/

/-- Behind a save of which the path shows the document, the directory above the file is still there,
and there is room at the path again. -/
theorem housed_of_ready {text : String} (housed : Housed file made)
    (move : (ready file text at_ made).rename (temporaryAt file at_ made) file = .ok saved)
    (found : saved.fileNode file = .ok made.nodes.length) :
    Housed file saved ∧ ∀ here, (ready file "" here saved).room file = .ok () := by
  obtain ⟨dest, name, entry, check, names, noSlash, proper, walk, there, notDirectory, rfl⟩ :=
    rename_eq_ok move
  have new := @entry?_ready file at_ made text (temporaryAt file at_ made)
  rw [if_pos rfl] at new
  obtain rfl : entry = .file made.nodes.length := Option.some.inj (there.symm.trans new)
  obtain ⟨_, -, shown⟩ := fileNode_eq_ok.mp found
  -- A link on the way that the file has replaced would keep the path from being found.
  have kept {names more : List Name} {used : Nat} {mid : Location} (le : used ≤ maxLinks)
      (some : more ≠ []) (plain : trailingSlash ∉ names ++ more)
      (steps : ∀ fs follow links here, walkLinks fs Path.steps follow links here file.steps =
        walkLinks fs Path.steps follow links here (names ++ more))
      (way : Leads (ready file text at_ made) used (made.start file) names mid) :=
    (way.behind_move new (List.append_ne_nil_of_right_ne_nil dest (by simp))
      notDirectory).resolve_right
      fun ⟨_, _, _, _, _, refused⟩ => by
        have never := refused true maxLinks more le some plain
        rw [← steps] at never
        cases shown.symm.trans never
  constructor
  · intro dir directory
    obtain ⟨checkDir, used, le, mid, way⟩ := isDirectory_iff_leads.mp (housed dir directory)
    obtain ⟨more, some, plain, steps⟩ := exists_steps_behind directory
    have plainDir := trailingSlash_not_mem_steps dir
    have plainAll : trailingSlash ∉ dir.steps ++ more := fun inside =>
      (List.mem_append.mp inside).elim plainDir plain
    refine isDirectory_iff_leads.mpr ⟨checkDir, used, le, mid, ?_⟩
    rw [start_directory? directory] at way ⊢
    exact kept le some plainAll (steps _ plainDir (filter_steps dir)) (way.extends extends_ready)
  · intro here
    have steps : file.steps = file.names.dropLast ++ [name] :=
      (steps_of_noSlash noSlash).trans names
    have plain := trailingSlash_not_mem_steps file
    rw [steps] at plain
    have plainFront : trailingSlash ∉ file.names.dropLast := fun inside =>
      plain (List.mem_append_left _ inside)
    obtain ⟨used, le, way⟩ := leads_of_walkLinks plainFront walk
    have way' := kept le (by simp) plain (fun _ _ _ _ => by rw [steps]) way
    refine room_eq_ok.mpr ⟨dest ++ [name], target_eq_ok.mpr ⟨dest, name, check, names, noSlash,
      proper, (way'.extends extends_ready).walkLinks le plainFront, rfl⟩, ?_⟩
    rw [entry?_ready, entry?_setEntry (by simp), if_pos rfl]
    split_ifs <;> simp

/-- So does one that has succeeded. -/
theorem Standing.written (h : Standing file fs)
    (done : save refusals file settings fs = (.ok (), saved)) :
    Standing file saved ∧ saved.readText file = .ok (document settings) ∧
      ∀ refusals settings,
        (save refusals file settings saved).1 = (save refusals file settings fs).1 := by
  obtain ⟨dir, made, parents, move⟩ := save_eq_ok done
  have notCircular := h.not_circular
  have sound := h.sound_made
  rw [parents] at notCircular sound
  have found := (fileNode_of_ready move).resolve_right fun lost => notCircular lost.2
  have text := (readText_of_ready move).resolve_right fun lost => notCircular lost.2
  obtain ⟨housed, room⟩ := housed_of_ready (housed_of_makeParents parents) move found
  obtain ⟨at_, directory⟩ := housed.exists_directory
  have parents' : makeParents file saved = (.ok at_, saved) := by rw [housed.makeParents, directory]
  have roomBefore : (ready file "" dir made).room file = .ok () := by
    have result := save_result_of_parents parents refusals settings
    rw [done] at result
    cases refusal : refusals.first? with
    | some fault => simp [refusal] at result
    | none => simpa [refusal] using result.symm
  refine ⟨⟨?_, .inr ⟨_, text⟩, by rw [parents']⟩, text, fun refusals settings => ?_⟩
  · exact Sound.rename ((sound.addFile _ _).setContent _ _) move
  · rw [save_result_of_parents parents, save_result_of_parents parents', room, roomBefore]

end CobolDialects.Settings.File
