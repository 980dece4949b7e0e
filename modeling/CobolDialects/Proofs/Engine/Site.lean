import CobolDialects.Engine.Closing
import CobolDialects.Engine.Opening
import CobolDialects.Proofs.FileSystem.Spots

/-!
# Where the files of a database lie

Besides the file of a database there are, for a time, those of its log, of the index of the log, and
of a journal. A site is where nothing is in the way of these files: however many of them are there,
the path of the database leads to the same place, and the engine can open and remove each of them.
-/

namespace CobolDialects

/-! ## Names beside a location -/

namespace Location

variable {at_ : Location} {ending other : String}

theorem beside_ne_nil : beside at_ ending ≠ [] := by simp [beside]

theorem beside_append (dir : Location) (name : Name) (ending : String) :
    beside (dir ++ [name]) ending = dir ++ [name ++ bytesOf ending] := by
  simp [beside]

theorem beside_ne (proper : at_ ≠ []) (some : bytesOf ending ≠ []) : beside at_ ending ≠ at_ := by
  rw [← List.dropLast_concat_getLast proper, beside_append]
  intro same
  exact some (by simpa using same)

theorem beside_injective (same : beside at_ ending = beside at_ other) : ending = other := by
  have last := List.append_cancel_left same
  exact bytesOf_injective (List.append_cancel_left (List.singleton_inj.mp last))

end Location

namespace FileSystem

variable {places : List Location} {fs fs' after : FileSystem} {at_ : Location} {n : Nat}

/-- The file system as it may become when files at some places come and go. -/
structure Varies (places : List Location) (fs fs' : FileSystem) : Prop where
  working : fs'.working = fs.working
  elsewhere : ∀ other ∉ places, fs'.entry? other = fs.entry? other
  plain : ∀ at_ ∈ places, fs'.Plain at_

theorem Varies.opened (h : Varies places fs fs') (place : at_ ∈ places)
    (opened : fs'.OpenedAt at_ n after) : Varies places fs after where
  working := opened.working.trans h.working
  elsewhere other away := by
    refine (opened.elsewhere other ?_).trans (h.elsewhere other away)
    rintro rfl
    exact away place
  plain other there := by
    by_cases same : other = at_
    · exact .inr ⟨n, same ▸ opened.entry⟩
    · rw [Plain, opened.elsewhere other same]
      exact h.plain other there

theorem Varies.setContent (h : Varies places fs fs') (n : Nat) (content : Content) :
    Varies places fs (fs'.setContent n content) := ⟨h.working, h.elsewhere, h.plain⟩

theorem unlink_eq (plain : fs.Plain at_) : fs.unlink at_ = fs.removeEntry at_ := by
  unfold unlink
  rcases plain with free | ⟨n, file⟩
  · rw [free]
  · rw [file]

theorem entry?_unlink (plain : fs.Plain at_) (proper : at_ ≠ []) (other : Location) :
    entry? (fs.unlink at_) other = if other = at_ then none else fs.entry? other := by
  rw [unlink_eq plain, entry?_removeEntry proper]

theorem Varies.unlink (h : Varies places fs fs') (proper : at_ ≠ []) (place : at_ ∈ places) :
    Varies places fs (fs'.unlink at_) := by
  have entries := entry?_unlink (h.plain at_ place) proper
  refine ⟨?_, fun other away => ?_, fun other there => ?_⟩
  · rw [unlink_eq (h.plain at_ place)]
    exact h.working
  · rw [entries, if_neg (by rintro rfl; exact away place)]
    exact h.elsewhere other away
  · rw [Plain, entries]
    split_ifs
    · exact .inl rfl
    · exact h.plain other there

end FileSystem

/-! ## Sites -/

/-- An address under which a database is a file that is made on demand and can be written to, with
locks and with a log. -/
structure Database.Address.Ordinary (a : Database.Address) : Prop where
  onFile : a.isFileless = false
  standard : a.system = .standard
  makes : a.mode = .create
  mutable_ : a.isImmutable = false
  locks : a.isSet "nolock" = false
  index : a.isSet "readonly_shm" = false
  mode : a.value? "modeof" = none

namespace Engine

open Database FileSystem

variable {path : Path} {at_ x : Location} {fs fs' : FileSystem}

/-- Where the files of a database may lie. -/
def places (at_ : Location) : List Location :=
  [at_, .beside at_ logEnding, .beside at_ indexEnding, .beside at_ journalEnding]

theorem mem_places : at_ ∈ places at_ := by simp [places]

theorem log_mem_places : .beside at_ logEnding ∈ places at_ := by simp [places]

theorem index_mem_places : .beside at_ indexEnding ∈ places at_ := by simp [places]

theorem journal_mem_places : .beside at_ journalEnding ∈ places at_ := by simp [places]

theorem log_ne_index : Location.beside at_ logEnding ≠ Location.beside at_ indexEnding :=
  fun same => absurd (Location.beside_injective same) (by decide)

theorem journal_ne_log : Location.beside at_ journalEnding ≠ Location.beside at_ logEnding :=
  fun same => absurd (Location.beside_injective same) (by decide)

theorem journal_ne_index : Location.beside at_ journalEnding ≠ Location.beside at_ indexEnding :=
  fun same => absurd (Location.beside_injective same) (by decide)

/-- The path leads to a location at which a database can be kept. -/
structure Site (path : Path) (at_ : Location) (fs : FileSystem) : Prop where
  clean : 0 ∉ path
  directory : ∀ dir, path.directory? = some dir → fs.isDirectory dir = true
  address : ∃ a, Address.read path = .ok a ∧ a.Ordinary ∧
    ∀ fs', Varies (places at_) fs fs' → fs'.locate? a.path = some at_
  short : at_.path.length ≤ maxFullPath
  spots : ∀ x ∈ places at_, fs.Spot x
  plain : ∀ x ∈ places at_, fs.Plain x

theorem length_of_mem_places (proper : at_ ≠ []) (h : x ∈ places at_) : x.length = at_.length := by
  rw [← List.dropLast_concat_getLast proper] at h ⊢
  simp only [places, Location.beside_append, List.mem_cons, List.not_mem_nil, or_false] at h
  rcases h with rfl | rfl | rfl | rfl <;> simp

/-- What files come and go at the places of a database leaves the directories above them there. -/
theorem spot_of_varies (proper : at_ ≠ []) (varies : Varies (places at_) fs fs')
    (place : x ∈ places at_) (h : fs.Spot x) : fs'.Spot x := by
  refine h.congr fun above front ne => varies.elsewhere above fun there => ne ?_
  have length := (length_of_mem_places proper there).trans (length_of_mem_places proper place).symm
  exact front.eq_of_length length

namespace Site

theorem ne_nil (h : Site path at_ fs) : at_ ≠ [] := (h.spots at_ mem_places).ne_nil

theorem ne_log (h : Site path at_ fs) : at_ ≠ .beside at_ logEnding :=
  (Location.beside_ne h.ne_nil (by decide)).symm

theorem ne_index (h : Site path at_ fs) : at_ ≠ .beside at_ indexEnding :=
  (Location.beside_ne h.ne_nil (by decide)).symm

theorem ne_journal (h : Site path at_ fs) : at_ ≠ .beside at_ journalEnding :=
  (Location.beside_ne h.ne_nil (by decide)).symm

theorem spot (h : Site path at_ fs) (varies : Varies (places at_) fs fs') (place : x ∈ places at_) :
    fs'.Spot x := spot_of_varies h.ne_nil varies place (h.spots x place)

theorem openAt? (h : Site path at_ fs) (varies : Varies (places at_) fs fs')
    (place : x ∈ places at_) (mode : Nat) :
    ∃ n opened, fs'.openAt? x true mode = some (n, opened) ∧ fs'.OpenedAt x n opened :=
  (h.spot varies place).openAt? (varies.plain x place) mode

/-- The directories above a site are not made anew. -/
theorem makeDirectories (h : Site path at_ fs) (varies : Varies (places at_) fs fs') :
    fs'.makeDirectories (path.directory?.getD []) = (.ok (), fs') := by
  cases directory : path.directory? with
  | none => rfl
  | some dir =>
    obtain ⟨-, proper, -⟩ := Path.directory?_eq_some directory
    obtain ⟨at', found⟩ := isDirectory_iff.mp (h.directory dir directory)
    obtain ⟨check, walk⟩ := find_eq_ok.mp found
    -- The way passes directories and links, and at the places there are none.
    have supports : fs'.Supports fs .directory := by
      intro x passed there notFile
      refine (varies.elsewhere x fun place => ?_).trans there
      rcases h.plain x place with free | ⟨n, file⟩
      · cases free.symm.trans there
      · cases notFile n (Option.some.inj (there.symm.trans file))
    have start : fs'.start dir = fs.start dir := by
      rw [FileSystem.start, varies.working, FileSystem.start]
    have again : fs'.isDirectory dir = true := by
      refine isDirectory_iff.mpr ⟨at', find_eq_ok.mpr ⟨check, ?_⟩⟩
      rw [start]
      exact walkLinks_supports supports (Nat.le_refl _) walk
    rw [Option.getD_some, FileSystem.makeDirectories, if_neg proper, chain]
    exact makeChain_of_isDirectory again _

end Site

/-! ## Plain sites -/

/-- An engine that follows the path of a spot comes to the spot. -/
theorem followNames_spot (h : fs.Spot at_) (plain : fs.Plain at_)
    (short : at_.path.length < followedLimit)
    (jump : Location → Path → List Name → Option Location) (here : Location) (names : List Name)
    (all : here ++ names = at_) :
    fs.followNames jump here names = some at_ := by
  induction names generalizing here with
  | nil =>
    rw [followNames, ← all, List.append_nil]
  | cons name rest ih =>
    have front : here ++ [name] <+: at_ := ⟨rest, by simp [← all]⟩
    have usable := h.usable name (by simp [← all])
    have fits : ¬followedLimit ≤ (Location.path (here ++ [name])).length := by
      have le := length_path_le front
      omega
    have onward := ih (here ++ [name]) (by simpa using all)
    rw [followNames, if_neg usable.proper.notDot, if_neg usable.proper.notDotDot, if_neg fits]
    by_cases last : here ++ [name] = at_
    · rw [last] at onward ⊢
      rcases plain with free | ⟨n, file⟩
      · rw [h.find_free free]
        exact onward
      · rw [h.find_file file]
        exact onward
    · rw [(h.above front (by simp)).find_directory (h.directories _ front last)]
      exact onward

/-- A path that begins with a slash is the whole of an address. -/
theorem address_of_absolute (absolute : path.isAbsolute = true) :
    ∃ a, Address.read path = .ok a ∧ a.Ordinary ∧ a.path = path := by
  obtain ⟨rest, rfl⟩ : ∃ rest, path = Path.slash :: rest := by
    cases path with
    | nil => cases absolute
    | cons b rest => exact ⟨rest, by simpa [Path.isAbsolute] using absolute⟩
  have scheme : Address.scheme.isPrefixOf (Path.slash :: rest) = false := rfl
  have other : Path.slash :: rest ≠ Address.memoryPath := fun same =>
    absurd (List.cons.inj same).1 (by decide)
  refine ⟨.ofPath (Path.slash :: rest), ?_, ?_, rfl⟩
  · rw [Address.read, scheme]
    rfl
  · refine ⟨?_, rfl, rfl, ?_, rfl, rfl, rfl⟩
    · simp [Address.isFileless, Address.inMemory, Address.ofPath, other]
    · simp [Address.isImmutable, Address.isSet, Address.value?, Address.ofPath]

/-- The path of a spot is a site if nothing but files lies there, and the names of all of them are
short enough. -/
theorem site_of_spot (h : fs.Spot at_) (short : at_.path.length ≤ maxFullPath)
    (name : ∀ last ∈ at_.getLast?, last.length + 8 ≤ maxNameLength)
    (plain : ∀ x ∈ places at_, fs.Plain x) : Site at_.path at_ fs := by
  have components : ∀ c ∈ at_, Path.IsComponent c := fun c there => (h.usable c there).component
  have names : at_.path.names = at_ := Path.names_ofComponents true components
  have absolute : at_.path.isAbsolute = true := Path.isAbsolute_ofComponents true components
  have spots : ∀ x ∈ places at_, fs.Spot x := by
    obtain ⟨dir, last, rfl⟩ : ∃ dir last, at_ = dir ++ [last] :=
      ⟨_, _, (List.dropLast_concat_getLast h.ne_nil).symm⟩
    have few := name last (by simp)
    have longer (ending : Name) (clean : 0 ∉ ending) (plain : Path.slash ∉ ending)
        (long : 2 ≤ ending.length) (few : ending.length ≤ 8) :
        fs.Spot (dir ++ [last ++ ending]) := by
      refine h.longer clean plain long (by omega) ?_
      have limits : maxFullPath + 8 < pathLengthLimit := by decide
      omega
    simp only [places, Location.beside_append, List.forall_mem_cons]
    refine ⟨h, longer _ ?_ ?_ ?_ ?_, longer _ ?_ ?_ ?_ ?_, longer _ ?_ ?_ ?_ ?_, nofun⟩ <;> decide
  refine ⟨?_, fun dir directory => ?_, ?_, short, spots, plain⟩
  · exact (checkPath_eq_ok.mp h.checkPath).1
  · have normal : Path.Normal true at_ := ⟨components,
      fun _ dot => (h.usable _ dot).proper.notDot rfl,
      fun dot => (h.usable _ (List.mem_of_mem_tail dot)).proper.notDot rfl⟩
    obtain ⟨-, -, rfl⟩ := Path.directory?_eq_some directory
    have same : at_.path.components = at_ := Path.components_ofComponents normal
    rw [absolute, same]
    refine isDirectory_iff.mpr ⟨at_.dropLast, ?_⟩
    -- The root is above every spot, but is none itself.
    by_cases root : at_.dropLast = []
    · rw [root]
      exact find_root
    · refine (h.above (List.dropLast_prefix at_) root).find_directory ?_
      refine h.directories _ (List.dropLast_prefix at_) fun all => ?_
      have length := congrArg List.length all
      have some := List.length_pos_iff.mpr h.ne_nil
      simp only [List.length_dropLast] at length
      omega
  · obtain ⟨a, address, ordinary, path⟩ := address_of_absolute absolute
    refine ⟨a, address, ordinary, fun fs' varies => ?_⟩
    have start : fs'.start at_.path = [] := by rw [FileSystem.start, absolute, if_pos rfl]
    rw [path, locate?, start, names]
    have follows : at_.path.length < followedLimit := Nat.lt_of_le_of_lt short (by decide)
    have spot := spot_of_varies h.ne_nil varies mem_places h
    exact followNames_spot spot (varies.plain _ mem_places) follows _ [] at_ rfl

end Engine

end CobolDialects
