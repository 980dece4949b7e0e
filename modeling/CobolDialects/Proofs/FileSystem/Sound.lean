import CobolDialects.FileSystem.Beside
import CobolDialects.Proofs.FileSystem.Change

/-!
# Entries and their nodes

In a sound file system every entry of a file has its node. No change takes a node away, so this
stays as it is, and what holds on to a node can rely on it.
-/

namespace CobolDialects.FileSystem

variable {fs fs' opened : FileSystem} {at_ : Location} {n : Nat}

def Sound (fs : FileSystem) : Prop :=
  ∀ at_ n, (at_, .file n) ∈ fs.entries → n < fs.nodes.length

theorem sound_empty : empty.Sound := by
  intro at_ n there
  cases there

theorem Sound.lt_of_entry (h : fs.Sound) (entry : fs.entry? at_ = some (.file n)) :
    n < fs.nodes.length :=
  h at_ n (mem_of_entry (ne_nil_of_file entry) entry)

theorem Sound.lt_of_fileNode {p : Path} (h : fs.Sound) (found : fs.fileNode p = .ok n) :
    n < fs.nodes.length := by
  obtain ⟨at_, -, walk⟩ := fileNode_eq_ok.mp found
  exact h.lt_of_entry (fits_of_walkLinks walk)

/-! ## Changes -/

theorem Sound.of_subset (h : fs.Sound) (le : fs.nodes.length ≤ fs'.nodes.length)
    (subset : ∀ at_ n, (at_, .file n) ∈ fs'.entries → (at_, .file n) ∈ fs.entries) : fs'.Sound :=
  fun at_ n there => Nat.lt_of_lt_of_le (h at_ n (subset at_ n there)) le

@[simp] theorem length_nodes_setContent (content : Content) :
    (fs.setContent n content).nodes.length = fs.nodes.length := by
  simp [setContent]

theorem Sound.setContent (h : fs.Sound) (n : Nat) (content : Content) :
    (fs.setContent n content).Sound :=
  h.of_subset (Nat.le_of_eq (length_nodes_setContent content).symm) fun _ _ => id

@[simp] theorem length_nodes_setMode (mode : Nat) :
    (fs.setMode n mode).nodes.length = fs.nodes.length := by
  simp [setMode]

theorem content_setMode {m mode : Nat} : ((fs.setMode n mode).node? m).map (·.content) =
    (fs.node? m).map (·.content) := by
  rw [FileSystem.node?, setMode, List.getElem?_modify, FileSystem.node?]
  cases fs.nodes[m]? with
  | none => rfl
  | some node => split_ifs <;> rfl

@[simp] theorem length_nodes_addNode (node : Node) :
    (fs.addNode node).nodes.length = fs.nodes.length + 1 := by
  simp [addNode]

theorem Sound.addNode (h : fs.Sound) (node : Node) : (fs.addNode node).Sound :=
  h.of_subset (by simp) fun _ _ => id

@[simp] theorem length_nodes_addFile (node : Node) :
    (fs.addFile at_ node).nodes.length = fs.nodes.length + 1 := length_nodes_addNode node

theorem Sound.addFile (h : fs.Sound) (at_ : Location) (node : Node) :
    (fs.addFile at_ node).Sound := by
  intro other n there
  rw [length_nodes_addFile]
  rcases mem_setEntry there with old | new
  · exact Nat.lt_succ_of_lt (h other n old)
  · cases (Prod.mk.inj new).2
    exact Nat.lt_succ_self _

theorem Sound.rename {source : Location} {p : Path} {moved : FileSystem} (h : fs.Sound)
    (move : fs.rename source p = .ok moved) : moved.Sound := by
  obtain ⟨dir, name, entry, -, -, -, -, -, there, -, rfl⟩ := rename_eq_ok move
  intro at_ n inside
  rcases mem_setEntry inside with old | new
  · exact h at_ n (List.mem_filter.mp old).1
  · obtain ⟨-, rfl⟩ := Prod.mk.inj new
    exact h.lt_of_entry there

@[simp] theorem nodes_unlink : (fs.unlink at_).nodes = fs.nodes := by
  unfold unlink
  split <;> rfl

@[simp] theorem working_unlink : (fs.unlink at_).working = fs.working := by
  unfold unlink
  split <;> rfl

/-- What is left when a file has been removed was there before. -/
theorem extends_unlink (fs : FileSystem) (at_ : Location) : fs.Extends (fs.unlink at_) := by
  intro other entry there
  unfold unlink at there
  split at there
  · exact there
  · rename_i kind
    have proper : at_ ≠ [] := fun root => kind (root ▸ entry?_root)
    rw [entry?_removeEntry proper] at there
    split_ifs at there
    exact there

theorem Sound.unlink (h : fs.Sound) (at_ : Location) : (fs.unlink at_).Sound := by
  refine h.of_subset (Nat.le_of_eq (congrArg _ nodes_unlink).symm) fun other n there => ?_
  unfold FileSystem.unlink at there
  split at there
  · exact there
  · exact (List.mem_filter.mp there).1

theorem Sound.makeDirectories (h : fs.Sound) (p : Path) : (fs.makeDirectories p).2.Sound := by
  have grown := @grown_makeDirectories fs p
  exact h.of_subset (Nat.le_of_eq (congrArg _ grown.nodes).symm) grown.files

/-- A file is opened as it is, or with a new mode, or it is made. -/
theorem openAt?_cases {make : Bool} {mode : Nat} (h : fs.openAt? at_ make mode = some (n, opened)) :
    (∃ location, fs.lookup false at_.path = .ok (.found location (.file n)) ∧
      (opened = fs ∨ opened = fs.setMode n mode)) ∨
    n = fs.nodes.length ∧ ∃ new, opened = fs.addFile at_ ⟨.bytes [], new⟩ := by
  unfold openAt? at h
  split at h
  · rename_i location m found
    obtain ⟨rfl, rfl⟩ := Prod.mk.inj (Option.some.inj h)
    refine .inl ⟨location, found, ?_⟩
    split_ifs
    · exact .inr rfl
    · exact .inl rfl
  · cases make with
    | false => cases h
    | true =>
      obtain ⟨rfl, rfl⟩ := Prod.mk.inj (Option.some.inj h)
      exact .inr ⟨rfl, _, rfl⟩
  · cases h

/-- A file that is opened has its node. -/
structure Opened (fs : FileSystem) (n : Nat) (opened : FileSystem) : Prop where
  sound : opened.Sound
  le : fs.nodes.length ≤ opened.nodes.length
  lt : n < opened.nodes.length

theorem Sound.opens {make : Bool} {mode : Nat} (h : fs.Sound)
    (open_ : fs.openAt? at_ make mode = some (n, opened)) : fs.Opened n opened := by
  rcases openAt?_cases open_ with ⟨location, found, rfl | rfl⟩ | ⟨rfl, new, rfl⟩
  · exact ⟨h, Nat.le_refl _, h.lt_of_entry (fits_of_lookup found)⟩
  · have lt := h.lt_of_entry (fits_of_lookup found)
    exact ⟨h.of_subset (by simp) fun _ _ => id, by simp, by simpa using lt⟩
  · exact ⟨h.addFile _ _, by simp, by simp⟩

end CobolDialects.FileSystem
