import CobolDialects.FileSystem.Beside
import CobolDialects.Proofs.FileSystem.Chains
import CobolDialects.Proofs.FileSystem.Sound

/-!
# Spots

A spot is a location whose directory is there, under names that can be looked up. Calls that are
given the path of a spot find what is at it, be it a file or nothing, and change nothing elsewhere.
-/

namespace CobolDialects.FileSystem

variable {fs fs' opened : FileSystem} {at_ other here : Location} {names : List Name}
  {n m mode : Nat}
  {follow make : Bool}

/-- A component of a path that a directory may have as a name. -/
structure Usable (name : Name) : Prop where
  proper : Proper name
  component : Path.IsComponent name
  clean : 0 ∉ name

structure Spot (fs : FileSystem) (at_ : Location) : Prop where
  ne_nil : at_ ≠ []
  usable : ∀ name ∈ at_, Usable name
  directories : ∀ above, above <+: at_ → above ≠ at_ → fs.entry? above = some .directory
  short : at_.path.length < pathLengthLimit

/-- What is at a location is nothing or a file. -/
def Plain (fs : FileSystem) (at_ : Location) : Prop :=
  fs.entry? at_ = none ∨ ∃ n, fs.entry? at_ = some (.file n)

theorem Spot.congr (h : fs.Spot at_)
    (same : ∀ above, above <+: at_ → above ≠ at_ → fs'.entry? above = fs.entry? above) :
    fs'.Spot at_ :=
  { h with directories := fun above front ne =>
    (same above front ne).trans (h.directories above front ne) }

/-! ## Looking up a spot -/

theorem leads_of_directories (proper : ∀ name ∈ names, Proper name)
    (directories : ∀ more, more <+: names → more ≠ [] →
      fs.entry? (here ++ more) = some .directory) :
    Leads fs 0 here names (here ++ names) := by
  induction names generalizing here with
  | nil => simpa using .here here
  | cons name names ih =>
    have entry : fs.entry? (here ++ [name]) = some .directory :=
      directories [name] ⟨names, rfl⟩ (by simp)
    have next : Leads fs 0 (here ++ [name]) names (here ++ [name] ++ names) := by
      refine ih (fun c there => proper c (List.mem_cons_of_mem _ there)) fun more front _ => ?_
      have longer := directories (name :: more) (List.cons_prefix_cons.mpr ⟨rfl, front⟩) (by simp)
      simpa using longer
    simpa using Leads.into (proper name List.mem_cons_self) entry next

/-- What a joined text holds comes from the separator or from one of its pieces. -/
theorem mem_intercalate {b : UInt8} {between : Bytes} {pieces : List Bytes}
    (h : b ∈ between.intercalate pieces) : b ∈ between ∨ ∃ piece ∈ pieces, b ∈ piece := by
  induction pieces with
  | nil => simp at h
  | cons piece pieces ih =>
    cases pieces with
    | nil => exact .inr ⟨piece, List.mem_cons_self, by simpa using h⟩
    | cons second pieces =>
      rw [List.intercalate_cons_cons, List.append_assoc, List.mem_append, List.mem_append] at h
      rcases h with first | separator | later
      · exact .inr ⟨piece, List.mem_cons_self, first⟩
      · exact .inl separator
      · exact (ih later).imp_right fun ⟨c, there, inside⟩ =>
          ⟨c, List.mem_cons_of_mem _ there, inside⟩

theorem Spot.checkPath (h : fs.Spot at_) : FileSystem.checkPath at_.path = .ok () := by
  refine checkPath_eq_ok.mpr ⟨fun nul => ?_, h.short, by simp [Location.path, Path.ofComponents]⟩
  have inside : (0 : UInt8) ∈ [Path.slash].intercalate at_ := by
    simpa [Location.path, Path.ofComponents, Path.slash] using nul
  rcases mem_intercalate inside with separator | ⟨name, there, inName⟩
  · exact absurd separator (by decide)
  · exact (h.usable name there).clean inName

/-- A look-up comes to the directory of a spot, and there to its last name. -/
theorem Spot.lookup (h : fs.Spot at_) : ∃ dir name, at_ = dir ++ [name] ∧
    ∀ follow, fs.lookup follow at_.path = fs.enter follow maxLinks dir name [] := by
  obtain ⟨dir, name, rfl⟩ : ∃ dir name, at_ = dir ++ [name] :=
    ⟨_, _, (List.dropLast_concat_getLast h.ne_nil).symm⟩
  refine ⟨dir, name, rfl, fun follow => ?_⟩
  have components : ∀ c ∈ dir ++ [name], Path.IsComponent c := fun c there =>
    (h.usable c there).component
  have way : Leads fs 0 [] dir dir := by
    refine leads_of_directories (fun c there => ?_) fun more front _ => ?_
    · exact (h.usable c (List.mem_append_left _ there)).proper
    · refine h.directories more (front.trans (List.prefix_append _ _)) ?_
      rintro rfl
      exact absurd front.length_le (by simp)
  have steps : Path.steps (Location.path (dir ++ [name])) = dir ++ [name] := by
    rw [Path.steps, Location.path, Path.endsInSlash_ofComponents true (by simp) components,
      Path.names_ofComponents true components]
    rfl
  have plain : trailingSlash ∉ dir ++ [name] := fun there =>
    (h.usable _ there).component.ne_nil rfl
  have start : fs.start (Location.path (dir ++ [name])) = [] := by
    rw [FileSystem.start, Location.path, Path.isAbsolute_ofComponents true components, if_pos rfl]
  unfold FileSystem.lookup
  rw [h.checkPath, steps, start]
  show fs.walkLinks Path.steps follow maxLinks [] (dir ++ [name]) = _
  rw [way.walkLinks_append (Nat.zero_le _) plain (.inr (by simp)),
    walkLinks_proper (h.usable name (by simp)).proper (by simp)]
  rfl

theorem Spot.lookup_file (h : fs.Spot at_) (file : fs.entry? at_ = some (.file n)) :
    fs.lookup follow at_.path = .ok (.found at_ (.file n)) := by
  obtain ⟨dir, name, rfl, lookup⟩ := h.lookup
  rw [lookup, enter_file file, if_pos rfl]

theorem Spot.lookup_free (h : fs.Spot at_) (free : fs.entry? at_ = none) (follow : Bool) :
    ∃ dir name, fs.lookup follow at_.path = .ok (.vacant dir name) := by
  obtain ⟨dir, name, rfl, lookup⟩ := h.lookup
  exact ⟨dir, name, by rw [lookup, enter_missing free, if_pos rfl]⟩

theorem Spot.find_file (h : fs.Spot at_) (file : fs.entry? at_ = some (.file n)) :
    fs.find follow at_.path = .ok (at_, .file n) := by
  rw [FileSystem.find, h.lookup_file file]

theorem Spot.find_free (h : fs.Spot at_) (free : fs.entry? at_ = none) :
    fs.find follow at_.path = .error .notFound := by
  obtain ⟨dir, name, vacant⟩ := h.lookup_free free follow
  rw [FileSystem.find, vacant]

theorem Spot.find_directory (h : fs.Spot at_) (directory : fs.entry? at_ = some .directory) :
    fs.find follow at_.path = .ok (at_, .directory) := by
  obtain ⟨dir, name, rfl, lookup⟩ := h.lookup
  rw [FileSystem.find, lookup, enter_directory directory, walkLinks_nil]

/-- The slash alone leads to the root. -/
theorem find_root : fs.find true (Location.path []) = .ok ([], .directory) := by
  refine find_eq_ok.mpr ⟨rfl, ?_⟩
  have steps : Path.steps (Location.path []) = [Path.dot] := by decide
  rw [steps]
  exact walkLinks_dot.trans walkLinks_nil

theorem length_path_le {front : Location} (h : front <+: at_) :
    front.path.length ≤ at_.path.length := by
  have shorter := intercalate_sublist [Path.slash] h.sublist
  simpa [Location.path, Path.ofComponents] using shorter.length_le

/-- A directory on the way to a spot is at one. -/
theorem Spot.above (h : fs.Spot at_) {front : Location} (le : front <+: at_) (some : front ≠ []) :
    fs.Spot front where
  ne_nil := some
  usable name there := h.usable name (le.subset there)
  directories above before ne := h.directories above (before.trans le) fun same => by
    subst same
    exact ne (before.eq_of_length (Nat.le_antisymm before.length_le le.length_le))
  short := Nat.lt_of_le_of_lt (length_path_le le) h.short

/-- The path of a name in a directory is longer by the name. -/
theorem exists_length_path (dir : Location) :
    ∃ front, ∀ name, (Location.path (dir ++ [name])).length = front + name.length := by
  cases dir with
  | nil => exact ⟨1, fun name => by simp [Location.path, Path.ofComponents, Nat.add_comm]⟩
  | cons c dir =>
    refine ⟨(Location.path (c :: dir)).length + 1, fun name => ?_⟩
    have joined := Path.intercalate_append (List.cons_ne_nil c dir) name
    simp only [Location.path, Path.ofComponents, joined]
    simp only [List.length_append, List.length_cons]
    omega

/-- A longer name in the same directory is at a spot too, unless it is too long. -/
theorem Spot.longer {dir : Location} {name ending : Name} (h : fs.Spot (dir ++ [name]))
    (clean : 0 ∉ ending) (plain : Path.slash ∉ ending) (long : 2 ≤ ending.length)
    (name_short : name.length + ending.length ≤ maxNameLength)
    (short : (Location.path (dir ++ [name])).length + ending.length < pathLengthLimit) :
    fs.Spot (dir ++ [name ++ ending]) := by
  have usable := h.usable name (by simp)
  have some := List.length_pos_iff.mpr usable.component.ne_nil
  have length : (name ++ ending).length = name.length + ending.length := List.length_append
  have ne (other : Name) (few : other.length ≤ 2) : name ++ ending ≠ other := by
    intro same
    rw [same] at length
    omega
  refine ⟨by simp, fun other there => ?_, fun above front proper => ?_, ?_⟩
  · rcases List.mem_append.mp there with inside | last
    · exact h.usable other (List.mem_append_left _ inside)
    · obtain rfl := List.mem_singleton.mp last
      exact {
        proper := ⟨ne _ (by decide), ne _ (by decide), ne _ (by decide), by omega⟩
        component := ⟨by simp [usable.component.ne_nil],
          by simp [usable.component.not_slash, plain]⟩
        clean := by simp [usable.clean, clean] }
  · have inside : above <+: dir := by
      rcases List.prefix_concat_iff.mp front with same | inside
      · exact absurd same proper
      · exact inside
    refine h.directories above (inside.trans (List.prefix_append _ _)) fun same => ?_
    exact absurd inside.length_le (by simp [same])
  · obtain ⟨front, paths⟩ := exists_length_path dir
    rw [paths] at short ⊢
    omega

/-! ## What is learnt about a spot -/

theorem Spot.isOccupied_free (h : fs.Spot at_) (free : fs.entry? at_ = none) :
    fs.isOccupied at_ = false := by
  rw [isOccupied, h.find_free free]

theorem Spot.leadsTo (h : fs.Spot at_) (file : fs.entry? at_ = some (.file n)) :
    fs.leadsTo at_ n = true := by
  rw [FileSystem.leadsTo, h.find_file file]
  exact decide_eq_true rfl

theorem Spot.permissionsAt? (h : fs.Spot at_) (file : fs.entry? at_ = some (.file n))
    (lt : n < fs.nodes.length) : ∃ mode, fs.permissionsAt? at_.path = some mode := by
  have node : fs.node? n = some fs.nodes[n] := List.getElem?_eq_getElem lt
  simp only [FileSystem.permissionsAt?, h.find_file file, node]
  exact ⟨_, rfl⟩

/-! ## Opening a spot -/

/-- The file at a spot has been opened: the one that was there, or a new one. -/
structure OpenedAt (fs : FileSystem) (at_ : Location) (n : Nat) (opened : FileSystem) : Prop where
  entry : opened.entry? at_ = some (.file n)
  elsewhere : ∀ other ≠ at_, opened.entry? other = fs.entry? other
  working : opened.working = fs.working
  le : fs.nodes.length ≤ opened.nodes.length
  content : ∀ m < fs.nodes.length, (opened.node? m).map (·.content) = (fs.node? m).map (·.content)
  origin : fs.entry? at_ = some (.file n) ∨
    fs.entry? at_ = none ∧ n = fs.nodes.length ∧ n < opened.nodes.length ∧
      (opened.node? n).map (·.content) = some (.bytes [])

theorem Spot.openAt? (h : fs.Spot at_) (plain : fs.Plain at_) (mode : Nat) :
    ∃ n opened, fs.openAt? at_ true mode = some (n, opened) ∧ fs.OpenedAt at_ n opened := by
  rcases plain with free | ⟨n, file⟩
  · obtain ⟨dir, name, vacant⟩ := h.lookup_free free false
    refine ⟨fs.nodes.length, _, by rw [FileSystem.openAt?, vacant, if_pos rfl], ?_⟩
    exact {
      entry := by rw [addFile, entry?_setEntry h.ne_nil, if_pos rfl]
      elsewhere := fun other ne => by
        rw [addFile, entry?_setEntry h.ne_nil, if_neg ne]
        rfl
      working := rfl
      le := by simp
      content := fun m lt => by rw [node?_addFile_of_lt lt]
      origin := .inr ⟨free, rfl, by simp, by simp [addFile, addNode, setEntry, FileSystem.node?]⟩ }
  · refine ⟨n, _, by rw [FileSystem.openAt?, h.lookup_file file], ?_⟩
    split_ifs
    · exact ⟨file, fun _ _ => rfl, rfl, by simp, fun _ _ => content_setMode, .inl file⟩
    · exact ⟨file, fun _ _ => rfl, rfl, Nat.le_refl _, fun _ _ => rfl, .inl file⟩

theorem OpenedAt.eq_of_file (h : fs.OpenedAt at_ n opened) (file : fs.entry? at_ = some (.file m)) :
    n = m := by
  rcases h.origin with same | ⟨free, -⟩
  · exact Entry.file.inj (Option.some.inj (same.symm.trans file))
  · cases free.symm.trans file

theorem OpenedAt.new_of_free (h : fs.OpenedAt at_ n opened) (free : fs.entry? at_ = none) :
    n = fs.nodes.length ∧ n < opened.nodes.length ∧
      (opened.node? n).map (·.content) = some (.bytes []) := by
  rcases h.origin with file | ⟨-, new⟩
  · cases free.symm.trans file
  · exact new

end CobolDialects.FileSystem
