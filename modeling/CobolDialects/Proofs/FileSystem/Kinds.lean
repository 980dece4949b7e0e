import CobolDialects.Proofs.FileSystem.Change

/-!
# Kinds of entries

Which file an entry is does not matter for where a look-up leads, nor for whether something can be
moved there: it matters that it is a file.
-/

namespace CobolDialects

/-- The entry, whichever file it is. -/
def Entry.kind : Entry → Entry
  | .file _ => .file 0
  | entry => entry

/-- The place, whichever file is there. -/
def Place.kind : Place → Place
  | .found at_ entry => .found at_ entry.kind
  | place => place

namespace FileSystem

variable {fs fs' : FileSystem} {follow : Bool} {here : Location} {names : List Name} {p : Path}

/-- Two file systems have entries of the same kinds. -/
structure SameKinds (fs' fs : FileSystem) : Prop where
  entry : ∀ at_, (fs'.entry? at_).map Entry.kind = (fs.entry? at_).map Entry.kind
  working : fs'.working = fs.working

theorem SameKinds.walkLinks {links : Nat} (h : SameKinds fs' fs) :
    (fs'.walkLinks Path.steps follow links here names).map Place.kind =
      (fs.walkLinks Path.steps follow links here names).map Place.kind := by
  induction links, here, names using lookUp_induction with
  | nil => rw [walkLinks_nil, walkLinks_nil]
  | cons links here name rest ih followed =>
    rcases walkLinks_cases name rest with same | same | ⟨e, same⟩ | same
    · rw [same, same]
      exact ih here
    · rw [same, same]
      exact ih here.dropLast
    · rw [same, same]
    rw [same, same, enter, enter]
    have entry := h.entry (here ++ [name])
    generalize fs.entry? (here ++ [name]) = passed at entry ⊢
    generalize fs'.entry? (here ++ [name]) = passed' at entry ⊢
    rcases passed with _ | _ | _ | target <;> rcases passed' with _ | _ | _ | target' <;>
      try cases entry
    · rfl
    · exact ih _
    · simp only
      split_ifs <;> rfl
    · simp only
      split_ifs
      · rfl
      · cases links with
        | zero => rfl
        | succ links => exact followed links _ target rfl

theorem directoryAt_kind (place : Place) : directoryAt place.kind = directoryAt place := by
  cases place with
  | vacant dir name => rfl
  | found at_ entry => cases entry <;> rfl

theorem SameKinds.target (h : SameKinds fs' fs) : fs'.target p = fs.target p := by
  have bind_kind (found : Except Fault Place) :
      found.bind directoryAt = (found.map Place.kind).bind directoryAt := by
    cases found with
    | error e => rfl
    | ok place => exact (directoryAt_kind place).symm
  have start : fs'.start p = fs.start p := by rw [FileSystem.start, FileSystem.start, h.working]
  unfold FileSystem.target
  rw [start, bind_kind, h.walkLinks, ← bind_kind]

/-- Whether a file can be moved to a path has nothing to do with which file is where. -/
theorem SameKinds.room (h : SameKinds fs' fs) : fs'.room p = fs.room p := by
  have directory (at_ : Location) :
      fs'.entry? at_ = some .directory ↔ fs.entry? at_ = some .directory := by
    have entry := h.entry at_
    generalize fs.entry? at_ = passed at entry ⊢
    generalize fs'.entry? at_ = passed' at entry ⊢
    cases passed with
    | none => cases passed' <;> simp at entry ⊢
    | some e =>
      cases passed' with
      | none => simp at entry
      | some e' => cases e <;> cases e' <;> simp [Entry.kind] at entry ⊢
  unfold FileSystem.room
  simp only [h.target, directory]

end FileSystem

end CobolDialects
