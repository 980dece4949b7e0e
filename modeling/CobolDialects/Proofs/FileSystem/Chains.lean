import CobolDialects.Proofs.FileSystem.Directories
import CobolDialects.Proofs.FileSystem.Paths

/-!
# Making a chain of directories again

Each path of a chain is looked up by way of the next one, so there is a directory at the next one
as soon as there is anything at the first. Making the chain again therefore changes nothing, even if
the first attempt came to an end half-way.
-/

namespace CobolDialects.FileSystem

variable {fs made : FileSystem} {follow follow' : Bool} {here dir at_ : Location} {name : Name}
  {names more cs : List Name} {p q : Path} {paths : List Path} {place : Place} {entry : Entry}
  {e : Fault}

/-! ## Look-ups that fail -/

/-- A look-up that is refused is refused however it would go on, unless something is missing. -/
theorem walkLinks_error_append {links : Nat}
    (h : fs.walkLinks Path.steps follow links here names = .error e) (ne : e ≠ .notFound)
    (plain : trailingSlash ∉ names ++ more) (some : more ≠ []) :
    fs.walkLinks Path.steps follow' links here (names ++ more) = .error e := by
  have plainNames : trailingSlash ∉ names := fun there => plain (List.mem_append_left _ there)
  have goesOn (front : List Name) : front ++ more ≠ [] := fun none =>
    some (List.append_eq_nil_iff.mp none).2
  induction links, here, names, plainNames using plain_induction with
  | nil => cases walkLinks_nil.symm.trans h
  | dot links here rest _ _ ih =>
    rw [walkLinks_dot] at h
    rw [List.cons_append, walkLinks_dot]
    exact ih h (List.not_mem_of_not_mem_cons plain)
  | up links here rest _ _ ih =>
    rw [walkLinks_dotDot] at h
    rw [List.cons_append, walkLinks_dotDot]
    exact ih h (List.not_mem_of_not_mem_cons plain)
  | long links here name rest _ plainFront long =>
    have plainRest : trailingSlash ∉ rest ++ more := List.not_mem_of_not_mem_cons plain
    rw [walkLinks_long long plainFront] at h
    rw [List.cons_append, walkLinks_long long plainRest, h]
  | proper links here name rest _ plainFront proper ih followed =>
    have plainRest : trailingSlash ∉ rest ++ more := List.not_mem_of_not_mem_cons plain
    rw [walkLinks_proper proper plainFront] at h
    rw [List.cons_append, walkLinks_proper proper plainRest]
    cases found : fs.entry? (here ++ [name]) with
    | none =>
      rw [enter_missing found] at h
      split_ifs at h
      exact absurd (Except.error.inj h).symm ne
    | some entry =>
      cases entry with
      | directory =>
        rw [enter_directory found] at h ⊢
        exact ih h plainRest
      | file n =>
        rw [enter_file found] at h
        split_ifs at h
        rw [enter_file found, if_neg (goesOn rest), h]
      | link target =>
        rw [enter_link found] at h
        rw [enter_link found, if_neg fun last => goesOn rest last.1]
        split_ifs at h
        cases links with
        | zero => exact h
        | succ links =>
          have plainTarget := plain_onward plainRest target
          simp only [follower] at h ⊢
          rw [← List.append_assoc] at plainTarget ⊢
          exact followed links target (plain_onward plainFront target) rfl h plainTarget

/-! ## Paths of a chain -/

/-- The first path is that of the directory in which the second one has its last name. -/
structure Above (q p : Path) : Prop where
  absolute : q.isAbsolute = p.isAbsolute
  names : ∃ name, p.names = q.names ++ [name]
  steps : q.steps = q.names
  check : checkPath p = .ok () → checkPath q = .ok ()

theorem Above.start (h : Above q p) : fs.start q = fs.start p := by
  rw [FileSystem.start, FileSystem.start, h.absolute]

theorem checkPath_eq_ok : checkPath p = .ok () ↔ 0 ∉ p ∧ p.length < pathLengthLimit ∧ p ≠ [] := by
  unfold checkPath
  split_ifs with nul long none
  · exact iff_of_false nofun fun ⟨clean, _⟩ => clean (List.contains_iff_mem.mp nul)
  · exact iff_of_false nofun fun ⟨_, short, _⟩ => Nat.not_le_of_lt short long
  · exact iff_of_false nofun fun ⟨_, _, full⟩ => full none
  · exact iff_of_true rfl ⟨fun inside => nul (List.contains_iff_mem.mpr inside),
      Nat.lt_of_not_le long, none⟩

theorem above_ofComponents {absolute : Bool} {c : Name} (some : cs ≠ [])
    (h : Path.Normal absolute (cs ++ [c])) :
    Above (Path.ofComponents absolute cs) (Path.ofComponents absolute (cs ++ [c])) := by
  have front := h.of_append
  have longer : Path.ofComponents absolute (cs ++ [c]) =
      Path.ofComponents absolute cs ++ Path.slash :: c := by
    unfold Path.ofComponents
    rw [Path.intercalate_append some, List.append_assoc]
  have names := Path.names_ofComponents absolute front.proper
  refine ⟨?_, ⟨c, ?_⟩, ?_, fun check => ?_⟩
  · rw [Path.isAbsolute_ofComponents absolute front.proper,
      Path.isAbsolute_ofComponents absolute h.proper]
  · rw [names, Path.names_ofComponents absolute h.proper]
  · rw [Path.steps, Path.endsInSlash_ofComponents absolute some front.proper]
    rfl
  · rw [checkPath_eq_ok, longer] at check
    obtain ⟨noNul, short, -⟩ := check
    refine checkPath_eq_ok.mpr ⟨fun there => noNul (List.mem_append_left _ there), ?_, ?_⟩
    · rw [List.length_append] at short
      omega
    · intro none
      rw [none] at names
      exact some names.symm

theorem isChain_ancestors {absolute : Bool} (h : Path.Normal absolute cs.reverse) :
    (ancestors absolute cs).IsChain fun p q => Above q p := by
  induction cs with
  | nil => exact .nil
  | cons c above ih =>
    rw [List.reverse_cons] at h
    cases above with
    | nil => exact .singleton _
    | cons d above =>
      have whole : (c :: d :: above).reverse = (d :: above).reverse ++ [c] := List.reverse_cons
      refine .cons_cons ?_ (ih h.of_append)
      rw [whole]
      exact above_ofComponents (by simp) h

/-- The chain of a path that is made of components. -/
theorem isChain_chain {absolute : Bool} (h : Path.Normal absolute cs) :
    (chain (Path.ofComponents absolute cs)).IsChain fun p q => Above q p := by
  have components := Path.components_ofComponents h
  have isAbsolute := Path.isAbsolute_ofComponents absolute h.proper
  rw [chain, components, isAbsolute]
  cases reverse : cs.reverse with
  | nil => exact .singleton _
  | cons c above =>
    have same : Path.ofComponents absolute cs =
        Path.ofComponents absolute (c :: above).reverse := by
      rw [← reverse, List.reverse_reverse]
    have normal : Path.Normal absolute (c :: above).reverse := by
      rwa [← reverse, List.reverse_reverse]
    rw [same, List.tail_cons]
    exact isChain_ancestors normal

theorem isChain_chain_directory? {dir : Path} (h : p.directory? = some dir) :
    (chain dir).IsChain fun p q => Above q p := by
  obtain ⟨some, -, rfl⟩ := Path.directory?_eq_some h
  have normal := Path.normal_components p
  rw [← List.dropLast_concat_getLast some] at normal
  exact isChain_chain normal.of_append

theorem names_subset_of_isChain (nested : (p :: paths).IsChain fun p q => Above q p)
    (inside : q ∈ p :: paths) : q.names ⊆ p.names := by
  induction paths generalizing p with
  | nil =>
    obtain rfl := List.mem_singleton.mp inside
    exact List.Subset.refl _
  | cons next paths ih =>
    rw [List.isChain_cons_cons] at nested
    rcases List.mem_cons.mp inside with rfl | inside
    · exact List.Subset.refl _
    · obtain ⟨name, names⟩ := nested.1.names
      rw [names]
      exact List.Subset.trans (ih nested.2 inside) (List.subset_append_left _ _)

/-! ## Where a directory is -/

theorem isDirectory_iff :
    fs.isDirectory p = true ↔ ∃ at_, fs.find true p = .ok (at_, .directory) := by
  unfold isDirectory
  split
  · rename_i at_ found
    simp [found]
  · rename_i other
    simpa using fun at_ found => other at_ found

theorem isDirectory_iff_leads : fs.isDirectory p = true ↔ checkPath p = .ok () ∧
    ∃ used ≤ maxLinks, ∃ at_, Leads fs used (fs.start p) p.steps at_ := by
  rw [isDirectory_iff]
  have plain := trailingSlash_not_mem_steps p
  constructor
  · rintro ⟨at_, found⟩
    obtain ⟨check, walk⟩ := find_eq_ok.mp found
    obtain ⟨used, le, way⟩ := leads_of_walkLinks plain walk
    exact ⟨check, used, le, at_, way⟩
  · rintro ⟨check, used, le, at_, way⟩
    exact ⟨at_, find_eq_ok.mpr ⟨check, way.walkLinks le plain⟩⟩

theorem site_eq_ok : fs.site p = .ok place ↔ checkPath p = .ok () ∧
    fs.walkLinks Path.steps false maxLinks (fs.start p) p.names = .ok place := by
  unfold site
  cases check : checkPath p with
  | error e => simp [Bind.bind, Except.bind]
  | ok => simp [Bind.bind, Except.bind]

/-- There is a directory wherever a look-up goes on from. -/
theorem Above.isDirectory_of_walk {rest : List Name} (h : Above q p) (check : checkPath p = .ok ())
    (some : rest ≠ []) (plain : trailingSlash ∉ q.names ++ rest)
    (walk : fs.walkLinks Path.steps follow maxLinks (fs.start p) (q.names ++ rest) = .ok place) :
    fs.isDirectory q = true := by
  obtain ⟨used, le, mid, way⟩ := leads_of_walkLinks_append plain some walk
  rw [← h.start, ← h.steps] at way
  exact isDirectory_iff_leads.mpr ⟨h.check check, used, le, mid, way⟩

theorem Above.isDirectory_of_site (h : Above q p) (site : fs.site p = .ok place) :
    fs.isDirectory q = true := by
  obtain ⟨check, walk⟩ := site_eq_ok.mp site
  obtain ⟨name, names⟩ := h.names
  have plain := trailingSlash_not_mem_names p
  rw [names] at plain walk
  exact h.isDirectory_of_walk check (by simp) plain walk

theorem Above.isDirectory (h : Above q p) (directory : fs.isDirectory p = true) :
    fs.isDirectory q = true := by
  obtain ⟨at_, found⟩ := isDirectory_iff.mp directory
  obtain ⟨check, walk⟩ := find_eq_ok.mp found
  obtain ⟨name, names⟩ := h.names
  obtain ⟨dots, -, steps⟩ := steps_eq_append p
  have plain := trailingSlash_not_mem_steps p
  rw [steps, names, List.append_assoc] at plain walk
  exact h.isDirectory_of_walk check (by simp) plain walk

theorem site_eq_walk (check : checkPath p = .ok ()) :
    fs.site p = fs.walkLinks Path.steps false maxLinks (fs.start p) p.names := by
  unfold site
  rw [check]
  rfl

/-- What is in the way of the shorter path is in the way of the longer one. -/
theorem Above.site_eq_error (h : Above q p) (site : fs.site q = .error e) (ne : e ≠ .notFound)
    (check : checkPath p = .ok ()) : fs.site p = .error e := by
  obtain ⟨name, names⟩ := h.names
  have plain := trailingSlash_not_mem_names p
  rw [names] at plain
  rw [site_eq_walk (h.check check), h.start] at site
  rw [site_eq_walk check, names]
  exact walkLinks_error_append site ne plain (by simp)

/-- Where there is a directory there is no room for one. -/
theorem site_of_isDirectory (h : fs.isDirectory p = true) :
    ∃ at_ entry, fs.site p = .ok (.found at_ entry) := by
  obtain ⟨at_, found⟩ := isDirectory_iff.mp h
  obtain ⟨check, walk⟩ := find_eq_ok.mp found
  obtain ⟨dots, -, steps⟩ := steps_eq_append p
  have plain := trailingSlash_not_mem_steps p
  rcases List.eq_nil_or_concat p.names with none | ⟨front, last, names⟩
  · refine ⟨fs.start p, .directory, site_eq_ok.mpr ⟨check, ?_⟩⟩
    rw [none, walkLinks_nil]
  rw [List.concat_eq_append] at names
  rw [steps, names, List.append_assoc] at plain walk
  obtain ⟨used, le, mid, way⟩ := leads_of_walkLinks_append plain (by simp) walk
  rw [way.walkLinks_append le plain (.inl rfl), List.singleton_append] at walk
  have plainLast : trailingSlash ∉ last :: dots :=
    fun there => plain (List.mem_append_right _ there)
  have plainDots : trailingSlash ∉ dots := List.not_mem_of_not_mem_cons plainLast
  have plainNames := trailingSlash_not_mem_names p
  rw [names] at plainNames
  suffices single : ∃ at_ entry, fs.walkLinks Path.steps false (maxLinks - used) mid [last] =
      .ok (.found at_ entry) by
    obtain ⟨at_, entry, single⟩ := single
    refine ⟨at_, entry, site_eq_ok.mpr ⟨check, ?_⟩⟩
    rw [names, way.walkLinks_append le plainNames (.inr (by simp)), single]
  rcases name_cases fun same => plainLast (same ▸ List.mem_cons_self) with rfl | rfl | long | proper
  · exact ⟨mid, .directory, walkLinks_dot.trans walkLinks_nil⟩
  · exact ⟨mid.dropLast, .directory, walkLinks_dotDot.trans walkLinks_nil⟩
  · cases (walkLinks_long long plainDots).symm.trans walk
  rw [walkLinks_proper proper plainDots] at walk
  rw [walkLinks_proper proper List.not_mem_nil]
  cases there : fs.entry? (mid ++ [last]) with
  | none =>
    rw [enter_missing there] at walk
    split_ifs at walk
    cases walk
  | some entry => cases entry <;> simp [enter, there, walkLinks_nil]

/-! ## Making the chain again -/

theorem makeDirectory_of_isDirectory (h : fs.isDirectory p = true) :
    fs.makeDirectory p = .error .alreadyExists := by
  obtain ⟨at_, entry, site⟩ := site_of_isDirectory h
  rw [makeDirectory, site]

theorem isDirectory_of_makeDirectory (h : fs.makeDirectory p = .ok made) :
    made.isDirectory p = true := by
  obtain ⟨dir, name, -, -, found⟩ := find_of_makeDirectory h
  exact isDirectory_iff.mpr ⟨_, found⟩

theorem makeChain_of_isDirectory (h : fs.isDirectory p = true) (shorter : List Path) :
    fs.makeChain (p :: shorter) = (.ok (), fs) := by
  rw [makeChain, makeDirectory_of_isDirectory h]
  simp only [h, if_true]

section Equations

variable {shorter : List Path} {above : FileSystem}

theorem makeChain_of_made (h : fs.makeDirectory p = .ok made) :
    fs.makeChain (p :: shorter) = (.ok (), made) := by
  rw [makeChain, h]

theorem makeChain_of_error (h : fs.makeDirectory p = .error e) (ne : e ≠ .notFound) :
    fs.makeChain (p :: shorter) = (if fs.isDirectory p then .ok () else .error e, fs) := by
  rw [makeChain, h]
  split_ifs <;> cases e <;> simp_all

theorem makeChain_of_failed (missing : fs.makeDirectory p = .error .notFound)
    (failed : fs.makeChain shorter = (.error e, above)) :
    fs.makeChain (p :: shorter) = (.error e, above) := by
  simp only [makeChain, missing, failed]

theorem makeChain_of_done (missing : fs.makeDirectory p = .error .notFound)
    (done : fs.makeChain shorter = (.ok (), above)) (h : above.makeDirectory p = .error e) :
    fs.makeChain (p :: shorter) = (if above.isDirectory p then .ok () else .error e, above) := by
  simp only [makeChain, missing, done, h]
  split_ifs <;> rfl

theorem makeChain_of_last (missing : fs.makeDirectory p = .error .notFound)
    (done : fs.makeChain shorter = (.ok (), above)) (h : above.makeDirectory p = .ok made) :
    fs.makeChain (p :: shorter) = (.ok (), made) := by
  simp only [makeChain, missing, done, h]

end Equations

/-- There is a directory if and only if the chain has been made. -/
theorem isDirectory_of_makeChain (fs : FileSystem) (nested : paths.IsChain fun p q => Above q p)
    (head : paths.head? = some p) :
    (fs.makeChain paths).2.isDirectory p = true ↔ (fs.makeChain paths).1 = .ok () := by
  fun_induction makeChain fs paths generalizing p with
  | case1 => cases head
  | case2 _ _ made done =>
    obtain rfl := Option.some.inj head
    simp [isDirectory_of_makeDirectory done]
  | case3 p' shorter _ e above failed ih =>
    obtain rfl : p' = _ := Option.some.inj head
    cases shorter with
    | nil => cases failed
    | cons q shorter =>
      rw [List.isChain_cons_cons] at nested
      have made := ih nested.2 rfl
      rw [failed] at made
      have never : above.isDirectory p' ≠ true := fun there => by
        cases made.mp (nested.1.isDirectory there)
      simp [never]
  | case4 _ _ _ above _ made done =>
    obtain rfl := Option.some.inj head
    simp [isDirectory_of_makeDirectory done]
  | case5 _ _ _ above _ _ _ there =>
    obtain rfl := Option.some.inj head
    simp [there]
  | case6 _ _ _ above _ _ _ notThere =>
    obtain rfl := Option.some.inj head
    simp [notThere]
  | case7 _ _ _ _ _ there =>
    obtain rfl := Option.some.inj head
    simp [there]
  | case8 _ _ _ _ _ notThere =>
    obtain rfl := Option.some.inj head
    simp [notThere]

theorem exists_site_of_makeDirectory (h : fs.makeDirectory p = .ok made) :
    ∃ place, fs.site p = .ok place := by
  unfold makeDirectory at h
  cases site : fs.site p with
  | error e => simp [site] at h
  | ok place => exact ⟨place, rfl⟩

theorem makeDirectory_eq_error (h : fs.makeDirectory p = .error e) :
    fs.site p = .error e ∨ ∃ at_ entry, fs.site p = .ok (.found at_ entry) := by
  unfold makeDirectory at h
  cases site : fs.site p with
  | error e' => simpa [site] using h
  | ok place =>
    cases place with
    | found at_ entry => exact .inr ⟨at_, entry, rfl⟩
    | vacant dir name => simp [site] at h

/-- A path that a longer look-up has missed is one that the system accepts. -/
theorem Above.check_of_missing (h : Above q p) (missing : fs.site p = .error .notFound) :
    checkPath p = .ok () := by
  have some : p ≠ [] := by
    rintro rfl
    obtain ⟨name, names⟩ := h.names
    simp [Path.names, splitBytes] at names
  cases check : checkPath p with
  | ok => rfl
  | error e =>
    have same : e = .notFound := by
      unfold site at missing
      rw [check] at missing
      exact Except.error.inj missing
    unfold checkPath at check
    split_ifs at check <;> cases same.symm.trans (Except.error.inj check).symm

/-- Where the chain above a path cannot be made, and making it again changes nothing, making the
chain of the path changes nothing either: it fails in the same way, or because of what is in the way
of the path itself. -/
theorem Above.makeChain_of_failed (way : Above q p) {shorter : List Path}
    (never : fs.isDirectory q ≠ true)
    (again : fs.makeChain (q :: shorter) = (.error e, fs) ∨
      ∃ e', e' ≠ .notFound ∧ fs.site q = .error e') :
    fs.makeChain (p :: q :: shorter) = (.error e, fs) ∨
      ∃ e', e' ≠ .notFound ∧ fs.site p = .error e' ∧
        fs.makeChain (p :: q :: shorter) = (.error e', fs) := by
  have noWay {place : Place} : fs.site p ≠ .ok place := fun site =>
    never (way.isDirectory_of_site site)
  cases last : fs.makeDirectory p with
  | ok made =>
    obtain ⟨place, site⟩ := exists_site_of_makeDirectory last
    exact absurd site noWay
  | error e' =>
    have site : fs.site p = .error e' := (makeDirectory_eq_error last).resolve_right
      fun ⟨_, _, site⟩ => noWay site
    by_cases absent : e' = .notFound
    · subst absent
      rcases again with same | ⟨e', ne, inWay⟩
      · exact .inl (FileSystem.makeChain_of_failed last same)
      · have missed := way.site_eq_error inWay ne (way.check_of_missing site)
        exact absurd (Except.error.inj (missed.symm.trans site)) ne
    · refine .inr ⟨e', absent, site, ?_⟩
      have notThere : fs.isDirectory p ≠ true := fun there => never (way.isDirectory there)
      simpa [notThere] using makeChain_of_error last absent

/-- Making a chain of directories again changes nothing. It fails as before, unless something else
than a missing directory is in the way of the first path from now on. -/
theorem makeChain_again (fs : FileSystem) (nested : paths.IsChain fun p q => Above q p) :
    (fs.makeChain paths).2.makeChain paths = fs.makeChain paths ∨
      ∃ p e, paths.head? = some p ∧ e ≠ .notFound ∧ (fs.makeChain paths).2.site p = .error e ∧
        (fs.makeChain paths).2.makeChain paths = (.error e, (fs.makeChain paths).2) := by
  fun_induction makeChain fs paths with
  | case1 => exact .inl rfl
  | case2 p _ made done =>
    exact .inl (makeChain_of_isDirectory (isDirectory_of_makeDirectory done) _)
  | case3 p shorter missing e above failed ih =>
    cases shorter with
    | nil => cases failed
    | cons q shorter =>
      rw [List.isChain_cons_cons] at nested
      have again := ih nested.2
      have head := isDirectory_of_makeChain fs nested.2 rfl
      rw [failed] at again head
      have never : above.isDirectory q ≠ true := fun there => nomatch head.mp there
      have inWay : above.makeChain (q :: shorter) = (.error e, above) ∨
          ∃ e', e' ≠ .notFound ∧ above.site q = .error e' := again.imp_right
        fun ⟨_, e', same, ne, inWay, _⟩ => ⟨e', ne, Option.some.inj same ▸ inWay⟩
      refine (nested.1.makeChain_of_failed never inWay).imp_right ?_
      exact fun ⟨e', ne, inWay, fails⟩ => ⟨p, e', rfl, ne, inWay, fails⟩
  | case4 p _ _ above _ made done =>
    exact .inl (makeChain_of_isDirectory (isDirectory_of_makeDirectory done) _)
  | case5 p shorter missing above _ _ refused there ih =>
    exact .inl (makeChain_of_isDirectory there _)
  | case6 p shorter missing above done e refused notThere ih =>
    left
    simp only
    by_cases absent : e = .notFound
    swap
    · simpa [notThere] using makeChain_of_error refused absent
    subst absent
    have again : above.makeChain shorter = (.ok (), above) := by
      have nested' : shorter.IsChain fun p q => Above q p := nested.of_cons
      have ih := ih nested'
      rw [done] at ih
      refine ih.resolve_right fun ⟨q, e, head, _, inWay, _⟩ => ?_
      have there := isDirectory_of_makeChain fs nested' head
      rw [done] at there
      obtain ⟨at_, entry, site⟩ := site_of_isDirectory (there.mpr rfl)
      cases site.symm.trans inWay
    simpa [notThere] using makeChain_of_done refused again refused
  | case7 p shorter e other refused there =>
    exact .inl (makeChain_of_isDirectory there _)
  | case8 p shorter e other refused notThere =>
    left
    simpa [notThere] using makeChain_of_error refused other

end CobolDialects.FileSystem
