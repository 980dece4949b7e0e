import CobolDialects.Proofs.FileSystem.Entries
import CobolDialects.Proofs.FileSystem.Walk

/-!
# Making directories and moving files

Directories and new files only add entries. A file that is moved to a path takes the place of what
was there, and the path leads to it from then on, unless what was there was a link by way of which
the path itself led. No file could be found at such a path before.
-/

namespace CobolDialects.FileSystem

variable {fs fs' made moved : FileSystem} {p : Path} {source : Location} {n : Nat}

theorem entry?_root : fs.entry? [] = some .directory := by
  unfold entry?
  simp

theorem ne_nil_of_file {at_ : Location} (h : fs.entry? at_ = some (.file n)) : at_ ≠ [] := by
  rintro rfl
  rw [entry?_root] at h
  cases h

theorem ne_nil_of_free {at_ : Location} (h : fs.entry? at_ = none) : at_ ≠ [] := by
  rintro rfl
  rw [entry?_root] at h
  cases h

/-! ## Adding entries -/

theorem extends_setEntry {at_ : Location} {entry : Entry} (free : fs.entry? at_ = none) :
    (fs.setEntry at_ entry).Extends fs := by
  intro other found there
  rw [entry?_setEntry (ne_nil_of_free free)]
  split_ifs with same
  · rw [same, free] at there
    cases there
  · exact there

theorem extends_addFile {at_ : Location} (free : fs.entry? at_ = none) (node : Node) :
    (fs.addFile at_ node).Extends fs := by
  have stillFree : entry? (fs.addNode node) at_ = none := free
  exact extends_setEntry stillFree

/-- The first file system has all entries of the second one and no file besides, and paths start at
the same place. -/
structure Grown (fs' fs : FileSystem) : Prop where
  entries : fs'.Extends fs
  files : ∀ at_ n, (at_, .file n) ∈ fs'.entries → (at_, .file n) ∈ fs.entries
  nodes : fs'.nodes = fs.nodes
  working : fs'.working = fs.working

theorem Grown.refl (fs : FileSystem) : fs.Grown fs := ⟨.refl fs, fun _ _ => id, rfl, rfl⟩

theorem Grown.trans {fs'' : FileSystem} (h : fs''.Grown fs') (h' : fs'.Grown fs) :
    fs''.Grown fs where
  entries := h.entries.trans h'.entries
  files at_ n there := h'.files at_ n (h.files at_ n there)
  nodes := h.nodes.trans h'.nodes
  working := h.working.trans h'.working

theorem grown_makeDirectory (h : fs.makeDirectory p = .ok made) : made.Grown fs := by
  unfold makeDirectory at h
  cases place : fs.site p with
  | error e => simp [place] at h
  | ok place' =>
    cases place' with
    | found at_ entry => simp [place] at h
    | vacant dir name =>
      simp only [place, Except.ok.injEq] at h
      subst h
      unfold site at place
      cases check : checkPath p with
      | error e =>
        rw [check] at place
        cases place
      | ok =>
        rw [check] at place
        have free : fs.entry? (dir ++ [name]) = none := fits_of_walkLinks place
        refine ⟨extends_setEntry free, fun at_ n there => ?_, rfl, rfl⟩
        rcases mem_setEntry there with old | new
        · exact old
        · cases (Prod.mk.inj new).2

theorem grown_makeChain (paths : List Path) : (fs.makeChain paths).2.Grown fs := by
  induction paths with
  | nil => exact .refl fs
  | cons p shorter ih =>
    unfold makeChain
    split
    · rename_i made h
      exact grown_makeDirectory h
    · split
      · rename_i e above h
        rw [h] at ih
        exact ih
      · rename_i above h
        rw [h] at ih
        split
        · rename_i made last
          exact (grown_makeDirectory last).trans ih
        · split_ifs <;> exact ih
    · split_ifs <;> exact .refl fs

theorem grown_makeDirectories : (fs.makeDirectories p).2.Grown fs := by
  unfold makeDirectories
  split_ifs
  · exact .refl fs
  · exact grown_makeChain _

/-! ## Moving a file -/

/-- The directory at a place. -/
def directoryAt : Place → Except Fault Location
  | .vacant _ _ => .error .notFound
  | .found at_ .directory => .ok at_
  | .found _ _ => .error .notDirectory

/-- Where the entry of a place is, or would be. -/
def locationOf : Place → Location
  | .found at_ _ => at_
  | .vacant dir name => dir ++ [name]

/-- Where a file comes to stand that is moved to a path. -/
def target (fs : FileSystem) (p : Path) : Except Fault Location :=
  match checkPath p, p.names.getLast? with
  | .error e, _ => .error e
  | .ok (), none => .error .busy
  | .ok (), some name =>
    match (fs.walkLinks Path.steps true maxLinks (fs.start p) p.names.dropLast).bind
        directoryAt with
    | .error e => .error e
    | .ok dir =>
      if name = Path.dot ∨ name = Path.dotDot then .error .busy
      else if maxNameLength < name.length then .error .nameTooLong
      else if p.endsInSlash then .error .notDirectory
      else .ok (dir ++ [name])

theorem rename_eq : fs.rename source p =
    match fs.target p with
    | .error e => .error e
    | .ok at_ =>
      match fs.entry? source, fs.entry? at_ with
      | none, _ => .error .notFound
      | some _, some .directory => .error .isDirectory
      | some moved, _ => .ok ((fs.removeEntry source).setEntry at_ moved) := by
  unfold rename target
  cases checkPath p with
  | error e => rfl
  | ok =>
    cases p.names.getLast? with
    | none => rfl
    | some name =>
      cases fs.walkLinks Path.steps true maxLinks (fs.start p) p.names.dropLast with
      | error e => rfl
      | ok place =>
        cases place with
        | vacant dir missing => rfl
        | found dir there =>
          cases there with
          | file m => rfl
          | link target => rfl
          | directory =>
            simp only [Except.bind, directoryAt]
            split_ifs <;> rfl

theorem steps_of_noSlash (h : p.endsInSlash = false) : p.steps = p.names := by
  rw [Path.steps, h]
  rfl

/-- A path ends in a name, and the names before it lead to a directory. -/
theorem target_eq_ok {at_ : Location} : fs.target p = .ok at_ ↔ ∃ dir name,
    checkPath p = .ok () ∧ p.names = p.names.dropLast ++ [name] ∧ p.endsInSlash = false ∧
      Proper name ∧
      fs.walkLinks Path.steps true maxLinks (fs.start p) p.names.dropLast =
        .ok (.found dir .directory) ∧
      at_ = dir ++ [name] := by
  constructor
  · intro h
    unfold target at h
    cases check : checkPath p with
    | error e => simp [check] at h
    | ok =>
      cases last : p.names.getLast? with
      | none => simp [check, last] at h
      | some name =>
        obtain ⟨front, names⟩ := List.getLast?_eq_some_iff.mp last
        have split : p.names = p.names.dropLast ++ [name] := by rw [names, List.dropLast_concat]
        have notSlash : name ≠ trailingSlash := by
          rintro rfl
          exact trailingSlash_not_mem_names p (by rw [names]; simp)
        simp only [check, last] at h
        split at h
        · cases h
        rename_i dir found
        split_ifs at h with special long slash
        push Not at special
        refine ⟨dir, name, rfl, split, by simpa using slash,
          ⟨special.1, special.2, notSlash, Nat.le_of_not_lt long⟩, ?_, (Except.ok.inj h).symm⟩
        cases walk : fs.walkLinks Path.steps true maxLinks (fs.start p) p.names.dropLast with
        | error e => simp [walk, Except.bind] at found
        | ok place =>
          rw [walk] at found
          cases place with
          | vacant dir missing => cases found
          | found at_ entry =>
            cases entry with
            | directory => rw [Except.ok.inj found]
            | file m => cases found
            | link target => cases found
  · rintro ⟨dir, name, check, names, noSlash, proper, walk, rfl⟩
    have last : p.names.getLast? = some name := by rw [names, List.getLast?_concat]
    unfold target
    simp only [check, last, walk, Except.bind, directoryAt, proper.notDot, proper.notDotDot,
      or_self, if_false, noSlash, Nat.not_lt.mpr proper.short, Bool.false_eq_true]

/-- What there has to be for a file to be moved, and what comes of it. -/
theorem rename_eq_ok (h : fs.rename source p = .ok moved) : ∃ dir name entry,
    checkPath p = .ok () ∧ p.names = p.names.dropLast ++ [name] ∧ p.endsInSlash = false ∧
      Proper name ∧
      fs.walkLinks Path.steps true maxLinks (fs.start p) p.names.dropLast =
        .ok (.found dir .directory) ∧
      fs.entry? source = some entry ∧ fs.entry? (dir ++ [name]) ≠ some .directory ∧
      moved = (fs.removeEntry source).setEntry (dir ++ [name]) entry := by
  rw [rename_eq] at h
  cases place : fs.target p with
  | error e => simp [place] at h
  | ok at_ =>
    obtain ⟨dir, name, check, names, noSlash, proper, walk, rfl⟩ := target_eq_ok.mp place
    simp only [place] at h
    split at h
    · cases h
    · cases h
    · rename_i entry there notDirectory
      exact ⟨dir, name, entry, check, names, noSlash, proper, walk, there, notDirectory,
        (Except.ok.inj h).symm⟩

/-- Whether a file can be moved to a path. -/
def room (fs : FileSystem) (p : Path) : Except Fault Unit :=
  (fs.target p).bind fun at_ =>
    if fs.entry? at_ = some .directory then .error .isDirectory else .ok ()

theorem room_eq_ok : fs.room p = .ok () ↔
    ∃ at_, fs.target p = .ok at_ ∧ fs.entry? at_ ≠ some .directory := by
  unfold room
  cases fs.target p with
  | error e => simp [Except.bind]
  | ok at_ =>
    simp only [Except.bind, Except.ok.injEq, exists_eq_left']
    split_ifs with directory <;> simp [directory]

theorem rename_result {entry : Entry} (h : fs.entry? source = some entry) :
    (fs.rename source p).map (fun _ => ()) = fs.room p := by
  rw [rename_eq, room]
  cases fs.target p with
  | error e => rfl
  | ok at_ =>
    simp only [h, Except.bind]
    cases there : fs.entry? at_ with
    | none => rfl
    | some old => cases old <;> rfl

theorem entry?_move {at_ other : Location} {entry : Entry} (proper : at_ ≠ [])
    (sourceProper : source ≠ []) :
    entry? ((fs.removeEntry source).setEntry at_ entry) other =
      if other = at_ then some entry else if other = source then none else fs.entry? other := by
  rw [entry?_setEntry proper, entry?_removeEntry sourceProper]

theorem fileNode_eq_ok : fs.fileNode p = .ok n ↔ ∃ at_, checkPath p = .ok () ∧
    fs.walkLinks Path.steps true maxLinks (fs.start p) p.steps = .ok (.found at_ (.file n)) := by
  simp only [← lookup_eq_ok, fileNode, find]
  cases fs.lookup true p with
  | error e => simp
  | ok place =>
    cases place with
    | vacant dir name => simp
    | found at_ entry => cases entry <;> simp

theorem Supports.fileNode (h : fs'.Supports fs (.file n)) (start : fs'.working = fs.working)
    (found : fs.fileNode p = .ok n) : fs'.fileNode p = .ok n := by
  obtain ⟨at_, check, walk⟩ := fileNode_eq_ok.mp found
  have origin : fs'.start p = fs.start p := by rw [FileSystem.start, start, FileSystem.start]
  refine fileNode_eq_ok.mpr ⟨at_, check, ?_⟩
  rw [origin]
  exact walkLinks_supports h (Nat.le_refl _) walk

/-- Where there are as many entries, a file is found as before. -/
theorem Extends.fileNode (h : fs'.Extends fs) (start : fs'.working = fs.working)
    (found : fs.fileNode p = .ok n) : fs'.fileNode p = .ok n :=
  h.supports.fileNode start found

/-- A file is found as before if another one is removed. -/
theorem fileNode_removeEntry {at_ : Location} {m : Nat} (found : fs.fileNode p = .ok n)
    (entry : fs.entry? at_ = some (.file m)) (other : m ≠ n) :
    (fs.removeEntry at_).fileNode p = .ok n := by
  have supports : (fs.removeEntry at_).Supports fs (.file n) := by
    intro here passed there only
    rw [entry?_removeEntry (ne_nil_of_file entry)]
    split_ifs with removed
    · have same : passed = .file m := by
        rw [removed, entry] at there
        exact (Option.some.inj there).symm
      exact absurd (Entry.file.inj (only m same)).symm other
    · exact there
  exact supports.fileNode rfl found

/-- A way to a directory is still there when a file is moved, unless it led through the link that
the file has replaced. -/
theorem Leads.behind_move {here dir dest : Location} {names : List Name} {used : Nat}
    (h : Leads fs used here names dir) (file : fs.entry? source = some (.file n))
    (proper : dest ≠ [])
    (notDirectory : fs.entry? dest ≠ some .directory) :
    let moved := (fs.removeEntry source).setEntry dest (.file n)
    Leads moved used here names dir ∨
      ∃ target rest used', fs.entry? dest = some (.link target) ∧
        Leads fs used' (linkStart dest.dropLast target) (target.steps ++ rest) dir ∧
        ∀ follow limit more, used ≤ limit → more ≠ [] → trailingSlash ∉ names ++ more →
          moved.walkLinks Path.steps follow limit here (names ++ more) = .error .notDirectory := by
  intro moved
  have entries (at_ : Location) : moved.entry? at_ =
      if at_ = dest then some (.file n) else if at_ = source then none else fs.entry? at_ :=
    entry?_move proper (ne_nil_of_file file)
  have there : moved.entry? dest = some (.file n) := by rw [entries, if_pos rfl]
  refine h.overwritten (fun at_ directory => ?_) (fun at_ target link => ?_) there
  · rw [entries, if_neg (by rintro rfl; exact notDirectory directory), if_neg, directory]
    rintro rfl
    rw [file] at directory
    cases directory
  · by_cases overwritten : at_ = dest
    · exact .inr overwritten
    · rw [entries, if_neg overwritten, if_neg, link]
      · exact .inl rfl
      · rintro rfl
        rw [file] at link
        cases link

/-- A link by way of which names lead to the directory that holds the link leads to a directory, or
too far. -/
theorem through_link {dir : Location} {name : Name} {target : Path} {rest : List Name}
    {limit used : Nat} (proper : Proper name)
    (link : fs.entry? (dir ++ [name]) = some (.link target))
    (way : Leads fs used (linkStart dir target) (target.steps ++ rest) dir) :
    fs.walkLinks Path.steps true limit dir [name] = .error .tooManyLinks ∨
      ∃ mid, fs.walkLinks Path.steps true limit dir [name] = .ok (.found mid .directory) := by
  rw [walkLinks_proper proper List.not_mem_nil, enter_link link, if_neg (by simp)]
  cases limit with
  | zero => exact .inl rfl
  | succ limit =>
    simp only [follower, List.append_nil]
    obtain ⟨used', mid, front⟩ := way.front
    have plain := trailingSlash_not_mem_steps target
    rcases Nat.lt_or_ge limit used' with few | enough
    · exact .inl (front.walkLinks_few few plain)
    · exact .inr ⟨mid, front.walkLinks enough plain⟩

/-- The last name of a path is that of a link by way of which the names before it lead to where it
is. -/
inductive Circular (fs : FileSystem) (p : Path) : Prop
  | intro {dir : Location} {name : Name} {target : Path} {rest : List Name} {used used' : Nat}
    (check : checkPath p = .ok ()) (steps : p.steps = p.names.dropLast ++ [name])
    (proper : Proper name) (le : used ≤ maxLinks)
    (way : Leads fs used (fs.start p) p.names.dropLast dir)
    (link : fs.entry? (dir ++ [name]) = some (.link target))
    (back : Leads fs used' (linkStart dir target) (target.steps ++ rest) dir)

/-- Such a path leads to a directory, or too far. -/
theorem Circular.fileNode (h : Circular fs p) :
    fs.fileNode p = .error .tooManyLinks ∨ fs.fileNode p = .error .isDirectory := by
  obtain ⟨check, steps, proper, le, way, link, back⟩ := h
  have plain := trailingSlash_not_mem_steps p
  unfold FileSystem.fileNode find lookup
  simp only [check, Bind.bind, Except.bind]
  rw [steps] at plain ⊢
  rw [way.walkLinks_append le plain (.inl rfl)]
  rcases through_link proper link back with tooFar | ⟨mid, directory⟩
  · rw [tooFar]
    exact .inl rfl
  · rw [directory]
    exact .inr rfl

/-- It stays so where directories and links stay. -/
theorem Circular.mono (h : Circular fs p) (start : fs'.working = fs.working)
    (directories : ∀ at_, fs.entry? at_ = some .directory → fs'.entry? at_ = some .directory)
    (links : ∀ at_ target, fs.entry? at_ = some (.link target) →
      fs'.entry? at_ = some (.link target)) : Circular fs' p := by
  obtain ⟨check, steps, proper, le, way, link, back⟩ := h
  have origin : fs'.start p = fs.start p := by rw [FileSystem.start, start, FileSystem.start]
  rw [← origin] at way
  exact ⟨check, steps, proper, le, way.mono directories links, links _ _ link,
    back.mono directories links⟩

/-- A path leads to a place, its last name not followed, if a file can be moved there. -/
theorem lookup_of_target {at_ : Location} (h : fs.target p = .ok at_) :
    ∃ place, fs.lookup false p = .ok place ∧ locationOf place = at_ := by
  obtain ⟨dir, name, check, names, noSlash, proper, walk, rfl⟩ := target_eq_ok.mp h
  have steps : p.steps = p.names.dropLast ++ [name] := (steps_of_noSlash noSlash).trans names
  have plain := trailingSlash_not_mem_steps p
  rw [steps] at plain
  obtain ⟨used, le, way⟩ := leads_of_walkLinks (fun h => plain (List.mem_append_left _ h)) walk
  unfold lookup
  simp only [check, Bind.bind, Except.bind]
  rw [steps, way.walkLinks_append le plain (.inr (by simp)),
    walkLinks_proper proper List.not_mem_nil]
  cases found : fs.entry? (dir ++ [name]) with
  | none => exact ⟨.vacant dir name, by rw [enter_missing found, if_pos rfl], rfl⟩
  | some entry =>
    cases entry with
    | directory =>
      exact ⟨.found (dir ++ [name]) .directory, by rw [enter_directory found, walkLinks_nil], rfl⟩
    | file m => exact ⟨.found (dir ++ [name]) (.file m), by rw [enter_file found, if_pos rfl], rfl⟩
    | link target =>
      exact ⟨.found (dir ++ [name]) (.link target),
        by rw [enter_link found, if_pos ⟨rfl, rfl⟩], rfl⟩

/-- The path to which a file was moved leads to it, or to no directory on the way; and then it was
circular before. -/
theorem lookup_of_rename (h : fs.rename source p = .ok moved)
    (file : fs.entry? source = some (.file n)) : ∃ at_, fs.target p = .ok at_ ∧
      fs.entry? at_ ≠ some .directory ∧ moved = (fs.removeEntry source).setEntry at_ (.file n) ∧
      ((∀ follow, moved.lookup follow p = .ok (.found at_ (.file n))) ∨
        (∀ follow, moved.lookup follow p = .error .notDirectory) ∧ Circular fs p) := by
  obtain ⟨dir, name, entry, check, names, noSlash, proper, walk, there, notDirectory, rfl⟩ :=
    rename_eq_ok h
  obtain rfl := Option.some.inj (there.symm.trans file)
  have place : fs.target p = .ok (dir ++ [name]) :=
    target_eq_ok.mpr ⟨dir, name, check, names, noSlash, proper, walk, rfl⟩
  refine ⟨dir ++ [name], place, notDirectory, rfl, ?_⟩
  have steps : p.steps = p.names.dropLast ++ [name] := (steps_of_noSlash noSlash).trans names
  have plain := trailingSlash_not_mem_steps p
  rw [steps] at plain
  have origin : ((fs.removeEntry source).setEntry (dir ++ [name]) (.file n)).start p = fs.start p :=
    rfl
  have destination :
      entry? ((fs.removeEntry source).setEntry (dir ++ [name]) (.file n)) (dir ++ [name]) =
        some (.file n) := by
    rw [entry?_setEntry (by simp), if_pos rfl]
  obtain ⟨used, le, way⟩ := leads_of_walkLinks (fun h => plain (List.mem_append_left _ h)) walk
  unfold lookup
  simp only [check, Bind.bind, Except.bind]
  rw [origin, steps]
  rcases way.behind_move file (by simp) notDirectory with
    way' | ⟨target, rest, used', link, back, refused⟩
  · refine .inl fun follow => ?_
    rw [way'.walkLinks_append le plain (.inr (by simp)), walkLinks_proper proper List.not_mem_nil,
      enter_file destination, if_pos rfl]
  · rw [List.dropLast_concat] at back
    exact .inr ⟨fun follow => refused follow maxLinks [name] le (by simp) plain,
      check, steps, proper, le, way, link, back⟩

/-- So the path leads to the file, whether its last name is followed or not. -/
theorem fileNode_of_rename (h : fs.rename source p = .ok moved)
    (file : fs.entry? source = some (.file n)) :
    moved.fileNode p = .ok n ∨
      moved.fileNode p = .error .notDirectory ∧ Circular fs p := by
  obtain ⟨at_, -, -, -, found | ⟨lost, circular⟩⟩ := lookup_of_rename h file
  · exact .inl (by simp only [fileNode, find, found])
  · exact .inr ⟨by simp only [fileNode, find, lost], circular⟩

end CobolDialects.FileSystem
