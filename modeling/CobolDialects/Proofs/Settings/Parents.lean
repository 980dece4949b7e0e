import CobolDialects.Proofs.FileSystem.Alike
import CobolDialects.Settings.File

/-!
# The directories above a settings file

Making the directories above the file a second time changes nothing. Neither the directories that
are made nor what is reported of them depends on names of which the path does not speak.
-/

namespace CobolDialects.Settings.File

open FileSystem

variable {hidden : Name → Prop} {file dir : Path} {fs fs' : FileSystem}

/-- The directories that a save makes if they are missing. -/
def parents (file : Path) : List Path := file.directory?.elim [] chain

theorem makeParents_of_none (h : file.directory? = none) :
    makeParents file fs = (fs.directory Path.dot, fs) := by
  simp [makeParents, h]

theorem makeParents_of_some (h : file.directory? = some dir) :
    makeParents file fs =
      match fs.makeChain (chain dir) with
      | (.error fault, made) => (.error fault, made)
      | (.ok (), made) => (made.directory dir, made) := by
  obtain ⟨-, some, -⟩ := Path.directory?_eq_some h
  have chained : fs.makeDirectories dir = fs.makeChain (chain dir) := by
    rw [makeDirectories, if_neg some]
  rw [makeParents, h, ← chained]
  rfl

theorem state_makeParents (h : file.directory? = some dir) :
    (makeParents file fs).2 = (fs.makeChain (chain dir)).2 := by
  rw [makeParents_of_some h]
  split
  · rename_i same
    rw [same]
  · rename_i same
    rw [same]

theorem deepened_makeParents : Deepened (parents file) (makeParents file fs).2 fs := by
  unfold parents
  cases directory : file.directory? with
  | none =>
    rw [makeParents_of_none directory]
    exact .refl _ fs
  | some dir =>
    rw [state_makeParents directory]
    exact deepened_makeChain _

/-- Making the directories again changes nothing, and it fails as it did, unless something else than
a missing directory is in the way of the last one from then on. -/
theorem makeParents_again : makeParents file (makeParents file fs).2 = makeParents file fs ∨
    ∃ dir e, file.directory? = some dir ∧ e ≠ .notFound ∧
      (makeParents file fs).2.site dir = .error e ∧
      makeParents file (makeParents file fs).2 = (.error e, (makeParents file fs).2) := by
  cases directory : file.directory? with
  | none => exact .inl (by simp only [makeParents_of_none directory])
  | some dir =>
    rw [state_makeParents directory]
    rcases makeChain_again fs (isChain_chain_directory? directory) with
      same | ⟨p, e, head, ne, site, failed⟩
    · refine .inl ?_
      rw [makeParents_of_some directory, makeParents_of_some directory, same]
    · obtain rfl : dir = p := Option.some.inj head
      refine .inr ⟨dir, e, rfl, ne, site, ?_⟩
      rw [makeParents_of_some directory, failed]

theorem state_makeParents_again :
    (makeParents file (makeParents file fs).2).2 = (makeParents file fs).2 := by
  rcases @makeParents_again file fs with same | ⟨_, _, -, -, -, failed⟩
  · rw [same]
  · rw [failed]

/-! ## Hidden names -/

theorem names_directory? (h : file.directory? = some dir) : dir.names ⊆ file.names := by
  obtain ⟨-, -, rfl⟩ := Path.directory?_eq_some h
  have front : file.components.dropLast ⊆ file.components := List.dropLast_subset _
  have proper := fun c there => (Path.normal_components file).proper c (front there)
  rw [Path.names_ofComponents _ proper]
  exact List.Subset.trans front (Path.components_subset_names file)

theorem visible_parents (visible : Visible hidden file.names) (h : file.directory? = some dir) :
    ∀ q ∈ chain dir, Visible hidden q.names := fun _ inside _ there =>
  visible _ (names_directory? h (names_subset_of_isChain (isChain_chain_directory? h) inside there))

/-- What is kept under hidden names does not matter for making the directories. -/
theorem alike_makeParents (alike : Alike hidden fs' fs) (clear : Clear hidden fs)
    (visible : Visible hidden file.names) :
    (makeParents file fs').1 = (makeParents file fs).1 ∧
      Alike hidden (makeParents file fs').2 (makeParents file fs).2 := by
  cases directory : file.directory? with
  | none =>
    rw [makeParents_of_none directory, makeParents_of_none directory]
    have onlyDot : Visible hidden (Path.names Path.dot) := by
      intro name there
      have isDot : name ∈ [Path.dot] := there
      rw [List.mem_singleton.mp isDot]
      exact clear.dot
    exact ⟨alike.directory clear onlyDot, alike⟩
  | some dir =>
    have visible := visible_parents visible directory
    have last := visible dir List.mem_cons_self
    obtain ⟨same, made⟩ := alike.makeChain clear visible
    have clearMade := clear.of_deepened (fs.deepened_makeChain (chain dir))
    rw [makeParents_of_some directory, makeParents_of_some directory]
    cases first : fs.makeChain (chain dir) with
    | mk result above =>
      cases second : fs'.makeChain (chain dir) with
      | mk result' above' =>
        rw [first, second] at same made
        rw [first] at clearMade
        obtain rfl : result' = result := same
        cases result' with
        | error fault => exact ⟨rfl, made⟩
        | ok => exact ⟨made.directory clearMade last, made⟩

end CobolDialects.Settings.File
