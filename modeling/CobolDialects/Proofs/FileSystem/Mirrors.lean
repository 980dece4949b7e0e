import CobolDialects.Engine.Opening
import CobolDialects.Proofs.FileSystem.Regions
import CobolDialects.Proofs.FileSystem.Sound

/-!
# File systems that mirror one another

Two file systems may differ in a region, and in the numbers that their files have. Whatever is asked
by a path that keeps away from the region is answered alike, and after each change that is made in
both of them they mirror one another as before.
-/

namespace CobolDialects

/-- The numbers that files of one file system have in another one. -/
structure Renumbering where
  number : Nat → Nat
  /-- The files that both file systems have. -/
  shared : Set Nat
  injective : ∀ m ∈ shared, ∀ n ∈ shared, number m = number n → m = n

/-- An entry as it is in the other file system. -/
def Entry.renumbered (r : Renumbering) : Entry → Entry
  | .file n => .file (r.number n)
  | entry => entry

def Place.renumbered (r : Renumbering) : Place → Place
  | .found at_ entry => .found at_ (entry.renumbered r)
  | place => place

namespace FileSystem

variable {region : Set Location} {base fs fs' : FileSystem} {r : Renumbering} {follow : Bool}
  {here at_ : Location} {names : List Name} {p : Path} {paths : List Path} {entry : Entry}
  {m n : Nat}

/-- The second file system has the entries of the first one outside the region, and the same in the
files that they share, to which all those belong that are still to be made. Outside the region there
are no links but those of a third file system. -/
structure Mirrors (region : Set Location) (base : FileSystem) (r : Renumbering)
    (fs fs' : FileSystem) : Prop where
  working : fs'.working = fs.working
  origin : base.working = fs.working
  entry : ∀ at_ ∉ region, fs'.entry? at_ = (fs.entry? at_).map (Entry.renumbered r)
  shared : ∀ at_ ∉ region, ∀ n, fs.entry? at_ = some (.file n) → n ∈ r.shared
  node : ∀ n ∈ r.shared, fs'.node? (r.number n) = fs.node? n
  next : ∀ k, fs.nodes.length + k ∈ r.shared ∧ r.number (fs.nodes.length + k) = fs'.nodes.length + k
  links : ∀ at_ ∉ region, ∀ target, fs.entry? at_ = some (.link target) →
    base.entry? at_ = some (.link target)

namespace Mirrors

/-- The next file has a number in both. -/
theorem fresh (h : Mirrors region base r fs fs') :
    fs.nodes.length ∈ r.shared ∧ r.number fs.nodes.length = fs'.nodes.length := h.next 0

/-! ## Look-ups -/

theorem start (h : Mirrors region base r fs fs') : fs'.start p = fs.start p := by
  rw [FileSystem.start, FileSystem.start, h.working]

/-- What kept away from the region at first does so still. -/
theorem awayFrom (h : Mirrors region base r fs fs')
    (away : base.AwayFrom region (base.start p) names) :
    fs.AwayFrom region (fs.start p) names := by
  have start : base.start p = fs.start p := by rw [FileSystem.start, FileSystem.start, h.origin]
  rw [start] at away
  exact away.of_links h.links

theorem away (h : Mirrors region base r fs fs') (away : base.Away region p) : fs.Away region p :=
  h.awayFrom away

theorem walkLinks {links : Nat} (h : Mirrors region base r fs fs') (plain : trailingSlash ∉ names)
    (away : fs.AwayFrom region here names) :
    fs'.walkLinks Path.steps follow links here names =
      (fs.walkLinks Path.steps follow links here names).map (Place.renumbered r) := by
  induction links, here, names, plain using plain_induction with
  | nil => rw [walkLinks_nil, walkLinks_nil]; rfl
  | dot links here rest _ _ ih =>
    rw [walkLinks_dot, walkLinks_dot]
    exact ih away.dot
  | up links here rest _ _ ih =>
    rw [walkLinks_dotDot, walkLinks_dotDot]
    exact ih away.up
  | long links here name rest _ plainRest long =>
    rw [walkLinks_long long plainRest, walkLinks_long long plainRest]
    rfl
  | proper links here name rest _ plainRest proper ih followed =>
    rw [walkLinks_proper proper plainRest, walkLinks_proper proper plainRest, enter, enter,
      h.entry _ (away.outside proper)]
    cases there : fs.entry? (here ++ [name]) with
    | none =>
      simp only [Option.map_none]
      split_ifs <;> rfl
    | some passed =>
      cases passed with
      | directory => exact ih (away.into proper)
      | file n =>
        simp only [Option.map_some, Entry.renumbered]
        split_ifs <;> rfl
      | link target =>
        simp only [Option.map_some, Entry.renumbered]
        split_ifs
        · rfl
        · cases links with
          | zero => rfl
          | succ links =>
            exact followed links target (plain_onward plainRest target) rfl
              (away.through proper there)

theorem lookup (h : Mirrors region base r fs fs') (away : fs.Away region p) (follow : Bool) :
    fs'.lookup follow p = (fs.lookup follow p).map (Place.renumbered r) := by
  unfold FileSystem.lookup
  rw [h.start, h.walkLinks (trailingSlash_not_mem_steps p) away]
  cases checkPath p <;> rfl

theorem find (h : Mirrors region base r fs fs') (away : fs.Away region p) (follow : Bool) :
    fs'.find follow p = (fs.find follow p).map fun found => (found.1, found.2.renumbered r) := by
  unfold FileSystem.find
  rw [h.lookup away]
  cases fs.lookup follow p with
  | error e => rfl
  | ok place => cases place <;> rfl

/-- A file that is found outside the region is in the other file system, too. -/
theorem shared_of_find (h : Mirrors region base r fs fs') (away : fs.Away region p)
    (found : fs.find follow p = .ok (at_, .file n)) : n ∈ r.shared := by
  obtain ⟨-, walk⟩ := find_eq_ok.mp found
  have visited := visits_of_walkLinks (trailingSlash_not_mem_steps p) walk nofun
  exact h.shared at_ (away at_ visited) n (fits_of_walkLinks walk)

theorem isDirectory (h : Mirrors region base r fs fs') (away : fs.Away region p) :
    fs'.isDirectory p = fs.isDirectory p := by
  unfold FileSystem.isDirectory
  rw [h.find away]
  cases fs.find true p with
  | error e => rfl
  | ok found => obtain ⟨at_, _ | _ | _⟩ := found <;> rfl

theorem directory (h : Mirrors region base r fs fs') (away : fs.Away region p) :
    fs'.directory p = fs.directory p := by
  unfold FileSystem.directory
  rw [h.find away]
  cases fs.find true p with
  | error e => rfl
  | ok found => obtain ⟨at_, _ | _ | _⟩ := found <;> rfl

theorem contentOf (h : Mirrors region base r fs fs') (shared : n ∈ r.shared) :
    fs'.contentOf (r.number n) = fs.contentOf n := by
  rw [FileSystem.contentOf, h.node n shared, FileSystem.contentOf]

theorem readText (h : Mirrors region base r fs fs') (away : fs.Away region p) :
    fs'.readText p = fs.readText p := by
  unfold FileSystem.readText FileSystem.read FileSystem.fileNode
  rw [h.find away]
  cases found : fs.find true p with
  | error e => rfl
  | ok there =>
    obtain ⟨at_, _ | n | _⟩ := there
    · rfl
    · simp only [Except.map, Entry.renumbered, h.contentOf (h.shared_of_find away found)]
    · rfl

theorem permissionsAt? (h : Mirrors region base r fs fs') (away : fs.Away region p) :
    fs'.permissionsAt? p = fs.permissionsAt? p := by
  unfold FileSystem.permissionsAt?
  rw [h.find away]
  cases found : fs.find true p with
  | error e => rfl
  | ok there =>
    obtain ⟨at_, _ | n | _⟩ := there
    · rfl
    · simp only [Except.map, Entry.renumbered, h.node n (h.shared_of_find away found)]
    · rfl

theorem isOccupied (h : Mirrors region base r fs fs') (away : fs.Away region at_.path) :
    fs'.isOccupied at_ = fs.isOccupied at_ := by
  unfold FileSystem.isOccupied
  rw [h.find away]
  cases found : fs.find true at_.path with
  | error e => rfl
  | ok there =>
    obtain ⟨place, _ | n | _⟩ := there
    · rfl
    · simp only [Except.map, Entry.renumbered, h.contentOf (h.shared_of_find away found)]
    · rfl

theorem leadsTo (h : Mirrors region base r fs fs') (away : fs.Away region at_.path)
    (shared : n ∈ r.shared) : fs'.leadsTo at_ (r.number n) = fs.leadsTo at_ n := by
  unfold FileSystem.leadsTo
  rw [h.find away]
  cases found : fs.find true at_.path with
  | error e => rfl
  | ok there =>
    obtain ⟨place, _ | m | _⟩ := there
    · rfl
    · have same : r.number m = r.number n ↔ m = n :=
        ⟨r.injective m (h.shared_of_find away found) n shared, congrArg r.number⟩
      simp only [Except.map, Entry.renumbered, same]
    · rfl

/-! ## Changes -/

/-- Entries are changed in both file systems alike, and no link is added. -/
theorem of_entries {after after' : FileSystem} (h : Mirrors region base r fs fs')
    (entry : ∀ at_ ∉ region, after.entry? at_ = fs.entry? at_ ∧ after'.entry? at_ = fs'.entry? at_ ∨
      ∃ new, after.entry? at_ = new ∧ after'.entry? at_ = new.map (Entry.renumbered r) ∧
        (∀ n, new = some (.file n) → n ∈ r.shared) ∧ ∀ target, new ≠ some (.link target))
    (nodes : after.nodes = fs.nodes) (nodes' : after'.nodes = fs'.nodes)
    (working : after.working = fs.working) (working' : after'.working = fs'.working) :
    Mirrors region base r after after' where
  working := by rw [working, working', h.working]
  origin := h.origin.trans working.symm
  entry at_ outside := by
    rcases entry at_ outside with ⟨same, same'⟩ | ⟨new, there, there', -, -⟩
    · rw [same, same', h.entry at_ outside]
    · rw [there, there']
  shared at_ outside n file := by
    rcases entry at_ outside with ⟨same, -⟩ | ⟨new, there, -, shared, -⟩
    · exact h.shared at_ outside n (same.symm.trans file)
    · exact shared n (there.symm.trans file)
  node n shared := by
    unfold node?
    rw [nodes, nodes']
    exact h.node n shared
  next k := by
    rw [nodes, nodes']
    exact h.next k
  links at_ outside target link := by
    rcases entry at_ outside with ⟨same, -⟩ | ⟨new, there, -, -, none⟩
    · exact h.links at_ outside target (same.symm.trans link)
    · exact absurd (there.symm.trans link) (none target)

end Mirrors

theorem entry?_setEntry_nil : entry? (fs.setEntry [] entry) at_ = fs.entry? at_ := by
  unfold entry? setEntry
  split_ifs with root
  · rfl
  · rw [List.lookup_append, lookup_filter, if_neg root, List.lookup_cons, beq_false_of_ne root]
    simp

namespace Mirrors

theorem setEntry (h : Mirrors region base r fs fs') (at_ : Location) (entry : Entry)
    (shared : ∀ n, entry = .file n → n ∈ r.shared) (noLink : ∀ target, entry ≠ .link target) :
    Mirrors region base r (fs.setEntry at_ entry) (fs'.setEntry at_ (entry.renumbered r)) := by
  refine h.of_entries (fun other _ => ?_) rfl rfl rfl rfl
  by_cases root : at_ = []
  · subst root
    exact .inl ⟨entry?_setEntry_nil, entry?_setEntry_nil⟩
  rw [entry?_setEntry root, entry?_setEntry root]
  split_ifs
  · exact .inr ⟨some entry, rfl, rfl, fun n same => shared n (Option.some.inj same),
      by simpa using noLink⟩
  · exact .inl ⟨rfl, rfl⟩

theorem removeEntry (h : Mirrors region base r fs fs') (proper : at_ ≠ []) :
    Mirrors region base r (fs.removeEntry at_) (fs'.removeEntry at_) := by
  refine h.of_entries (fun other _ => ?_) rfl rfl rfl rfl
  rw [entry?_removeEntry proper, entry?_removeEntry proper]
  split_ifs
  · exact .inr ⟨none, rfl, rfl, nofun, nofun⟩
  · exact .inl ⟨rfl, rfl⟩

theorem addNode (h : Mirrors region base r fs fs') (node : Node) :
    Mirrors region base r (fs.addNode node) (fs'.addNode node) where
  working := h.working
  origin := h.origin
  entry := h.entry
  shared := h.shared
  node n shared := by
    have same := h.node n shared
    unfold node? at same ⊢
    rw [FileSystem.addNode, FileSystem.addNode]
    rcases Nat.lt_or_ge n fs.nodes.length with old | new
    · have inside : fs.nodes[n]? ≠ none := by simpa using old
      have old' : r.number n < fs'.nodes.length := by
        rw [← same] at inside
        simpa using inside
      rw [List.getElem?_append_left old, List.getElem?_append_left old', same]
    · obtain ⟨k, rfl⟩ := Nat.exists_eq_add_of_le new
      rw [(h.next k).2, List.getElem?_append_right new, List.getElem?_append_right (by omega)]
      simp
  next k := by
    have next := h.next (k + 1)
    simp only [length_nodes_addNode]
    rw [Nat.add_right_comm, Nat.add_assoc, Nat.add_right_comm fs'.nodes.length, Nat.add_assoc]
    exact next
  links := h.links

theorem addFile (h : Mirrors region base r fs fs') (at_ : Location) (node : Node) :
    Mirrors region base r (fs.addFile at_ node) (fs'.addFile at_ node) := by
  obtain ⟨shared, next⟩ := h.fresh
  have added := (h.addNode node).setEntry at_ (.file fs.nodes.length)
    (by rintro n ⟨⟩; exact shared) nofun
  rw [Entry.renumbered] at added
  rwa [FileSystem.addFile, FileSystem.addFile, ← next]

/-- A file that both share is changed in both of them. -/
theorem modify (h : Mirrors region base r fs fs') (shared : n ∈ r.shared) (f : Node → Node) :
    Mirrors region base r { fs with nodes := fs.nodes.modify n f }
      { fs' with nodes := fs'.nodes.modify (r.number n) f } where
  working := h.working
  origin := h.origin
  entry := h.entry
  shared := h.shared
  node m other := by
    have same := h.node m other
    unfold node? at same ⊢
    rw [List.getElem?_modify, List.getElem?_modify, same]
    have alike : r.number n = r.number m ↔ n = m :=
      ⟨r.injective n shared m other, congrArg r.number⟩
    simp only [alike]
  next k := by
    simpa using h.next k
  links := h.links

theorem setContent (h : Mirrors region base r fs fs') (shared : n ∈ r.shared) (content : Content) :
    Mirrors region base r (fs.setContent n content) (fs'.setContent (r.number n) content) :=
  h.modify shared _

theorem setMode (h : Mirrors region base r fs fs') (shared : n ∈ r.shared) (mode : Nat) :
    Mirrors region base r (fs.setMode n mode) (fs'.setMode (r.number n) mode) :=
  h.modify shared _

theorem unlink (h : Mirrors region base r fs fs') (at_ : Location) :
    Mirrors region base r (fs.unlink at_) (fs'.unlink at_) := by
  have unlinked (fs : FileSystem) (other : Location) : entry? (fs.unlink at_) other =
      if fs.entry? at_ ≠ some .directory ∧ other = at_ then none else fs.entry? other := by
    unfold FileSystem.unlink
    by_cases directory : fs.entry? at_ = some .directory
    · simp [directory]
    · have proper : at_ ≠ [] := by
        rintro rfl
        exact directory entry?_root
      split
      · contradiction
      · rw [entry?_removeEntry proper]
        simp only [ne_eq, directory, not_false_eq_true, true_and]
  have working (fs : FileSystem) : (fs.unlink at_).working = fs.working := by
    unfold FileSystem.unlink
    split <;> rfl
  refine h.of_entries (fun other outside => ?_) nodes_unlink nodes_unlink (working fs) (working fs')
  rw [unlinked, unlinked]
  by_cases there : other = at_
  · subst there
    rw [h.entry _ outside]
    cases there : fs.entry? other with
    | none => exact .inl (by simp)
    | some passed =>
      cases passed with
      | directory => exact .inl (by simp [Entry.renumbered])
      | file | link => exact .inr ⟨none, by simp [Entry.renumbered]⟩
  · simp [there]

end Mirrors

end FileSystem

end CobolDialects
