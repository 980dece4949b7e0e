import CobolDialects.Proofs.FileSystem.Directories
import CobolDialects.Proofs.FileSystem.Sound

/-!
# Places where nothing lies

A location where nothing lies stays so when entries go away. So it does when a file is opened and
removed at another location, even if a link leads from the one to the other.
-/

namespace CobolDialects.FileSystem

variable {fs fs' opened : FileSystem} {here dir at_ other : Location} {names : List Name}
  {n m : Nat}
  {make : Bool} {mode : Nat}

/-! ## Finding files -/

/-- A file is found at the end of a path, be links to be followed there or not. -/
theorem walkLinks_follow {links : Nat}
    (h : fs.walkLinks Path.steps false links here names = .ok (.found dir (.file n))) :
    fs.walkLinks Path.steps true links here names = .ok (.found dir (.file n)) := by
  induction links, here, names using lookUp_induction with
  | nil links here =>
    rw [walkLinks_nil] at h
    cases h
  | cons links here name rest ih followed =>
    rcases walkLinks_cases name rest with same | same | ⟨e, same⟩ | same
    · rw [same] at h ⊢
      exact ih here h
    · rw [same] at h ⊢
      exact ih here.dropLast h
    · cases (same ..).symm.trans h
    rw [same] at h ⊢
    cases found : fs.entry? (here ++ [name]) with
    | none =>
      rw [enter_missing found] at h
      split_ifs at h
      cases h
    | some passed =>
      cases passed with
      | directory =>
        rw [enter_directory found] at h ⊢
        exact ih (here ++ [name]) h
      | file file =>
        rw [enter_file found] at h ⊢
        exact h
      | link target =>
        rw [enter_link found] at h ⊢
        split_ifs at h
        · cases h
        rw [if_neg (by simp)]
        cases links with
        | zero => cases h
        | succ links => exact followed links _ target rfl h

theorem find_of_lookup {p : Path} (h : fs.lookup false p = .ok (.found at_ (.file n))) :
    fs.find true p = .ok (at_, .file n) := by
  obtain ⟨check, walk⟩ := lookup_eq_ok.mp h
  exact find_eq_ok.mpr ⟨check, walkLinks_follow walk⟩

/-! ## Files that are opened -/

theorem content_addNode (fs : FileSystem) (node : Node) (m : Nat) :
    (((fs.addNode node).node? m).map (·.content)).getD (.bytes []) =
      if m = fs.nodes.length then node.content
      else ((fs.node? m).map (·.content)).getD (.bytes []) := by
  rw [node?, addNode, node?]
  rcases Nat.lt_trichotomy m fs.nodes.length with lt | rfl | gt
  · rw [if_neg (Nat.ne_of_lt lt), List.getElem?_append_left lt]
  · simp
  · rw [if_neg (Nat.ne_of_gt gt), List.getElem?_eq_none (Nat.le_of_lt gt), List.getElem?_eq_none]
    rw [List.length_append]
    exact gt

theorem content_openAt? (h : fs.openAt? at_ make mode = some (n, opened)) (m : Nat) :
    ((opened.node? m).map (·.content)).getD (.bytes []) =
      ((fs.node? m).map (·.content)).getD (.bytes []) := by
  rcases openAt?_cases h with ⟨location, found, rfl | rfl⟩ | ⟨rfl, new, rfl⟩
  · rfl
  · rw [content_setMode]
  · refine (content_addNode fs ⟨.bytes [], new⟩ m).trans ?_
    split_ifs with same
    · rw [node?, List.getElem?_eq_none (Nat.le_of_eq same.symm)]
      rfl
    · rfl

theorem working_openAt? (h : fs.openAt? at_ make mode = some (n, opened)) :
    opened.working = fs.working := by
  rcases openAt?_cases h with ⟨location, found, rfl | rfl⟩ | ⟨rfl, new, rfl⟩ <;> rfl

theorem shown_content (fs : FileSystem) (n : Nat) :
    Content.shown (((fs.node? n).map (·.content)).getD (.bytes [])) = fs.contentOf n := by
  unfold contentOf
  cases fs.node? n <;> rfl

/-- A file that is opened where nothing lies is empty. -/
theorem contentOf_openAt? (h : fs.openAt? at_ make mode = some (n, opened))
    (free : fs.isOccupied at_ = false) : fs.contentOf n = [] := by
  rcases openAt?_cases h with ⟨location, found, -⟩ | ⟨rfl, -⟩
  · simpa [isOccupied, find_of_lookup found] using free
  · simp [contentOf, node?]

/-! ## Fewer entries -/

theorem isOccupied_of_fewer (fewer : fs.Extends fs') (start : fs'.working = fs.working)
    (empty : ∀ n, fs.contentOf n = [] → fs'.contentOf n = []) (free : fs.isOccupied at_ = false) :
    fs'.isOccupied at_ = false := by
  unfold isOccupied at free ⊢
  cases found : fs'.find true at_.path with
  | error => rfl
  | ok place =>
    obtain ⟨location, entry⟩ := place
    rw [fewer.find start.symm found] at free
    cases entry with
    | file n => simpa using empty n (by simpa using free)
    | directory => cases free
    | link target => cases free

/-- Nothing is left of a file that is opened and removed. -/
theorem extends_unlink_opened (proper : at_ ≠ []) (h : fs.openAt? at_ make mode = some (n, opened))
    (content : Content) : fs.Extends ((opened.setContent m content).unlink at_) := by
  rcases openAt?_cases h with ⟨location, found, same | rfl⟩ | ⟨rfl, new, rfl⟩
  · rw [same]
    exact extends_unlink (fs.setContent m content) at_
  · exact extends_unlink ((fs.setMode n mode).setContent m content) at_
  · intro other entry there
    have own : entry? ((fs.addFile at_ ⟨.bytes [], new⟩).setContent m content) at_ =
        some (.file fs.nodes.length) := (entry?_setEntry proper).trans (if_pos rfl)
    rw [unlink, own, entry?_removeEntry proper] at there
    split_ifs at there with same
    exact ((entry?_setEntry proper).trans (if_neg same)).symm.trans there

theorem isOccupied_unlink_opened (proper : at_ ≠ [])
    (h : fs.openAt? at_ make mode = some (n, opened)) (filled : fs.contentOf m ≠ [])
    (content : Content) (free : fs.isOccupied other = false) :
    ((opened.setContent m content).unlink at_).isOccupied other = false := by
  have working : ((opened.setContent m content).unlink at_).working = fs.working := by
    rw [working_unlink]
    show opened.working = fs.working
    exact working_openAt? h
  refine isOccupied_of_fewer (extends_unlink_opened proper h content) working
    (fun k empty => ?_) free
  have ne : m ≠ k := by
    rintro rfl
    exact filled empty
  rw [contentOf, node?, nodes_unlink, ← node?, node?_setContent_of_ne _ ne, ← contentOf,
    ← shown_content, content_openAt? h, shown_content, empty]

end CobolDialects.FileSystem
