import CobolDialects.Proofs.FileSystem.Change

/-!
# Directories that are made on the way

Making the directories of a path adds directories and nothing else, each of them where the path or
one of the paths above it leads.
-/

namespace CobolDialects.FileSystem

variable {fs fs' fs'' made : FileSystem} {follow : Bool} {here dir mid at_ : Location} {name : Name}
  {names rest more : List Name} {p : Path} {paths : List Path} {place : Place} {entry : Entry}
  {links : Nat}

/-! ## Ways on which a look-up has gone -/

theorem Leads.extends {used : Nat} (h : Leads fs used here names dir) (more : fs'.Extends fs) :
    Leads fs' used here names dir :=
  h.mono (fun _ => more _ _) fun _ _ => more _ _

/-- A look-up that comes to a place has gone a way to a directory by all names but the last ones. -/
theorem leads_of_walkLinks_append (plain : trailingSlash ∉ names ++ more) (some : more ≠ [])
    (h : fs.walkLinks Path.steps follow links here (names ++ more) = .ok place) :
    ∃ used ≤ links, ∃ mid, Leads fs used here names mid := by
  have plainNames : trailingSlash ∉ names := fun there => plain (List.mem_append_left _ there)
  have goesOn (front : List Name) : front ++ more ≠ [] := fun none =>
    some (List.append_eq_nil_iff.mp none).2
  induction links, here, names, plainNames using plain_induction with
  | nil links here => exact ⟨0, Nat.zero_le _, here, .here here⟩
  | dot links here rest _ _ ih =>
    obtain ⟨used, le, mid, way⟩ := ih (List.not_mem_of_not_mem_cons plain)
      (walkLinks_dot.symm.trans h)
    exact ⟨used, le, mid, .dot way⟩
  | up links here rest _ _ ih =>
    obtain ⟨used, le, mid, way⟩ := ih (List.not_mem_of_not_mem_cons plain)
      (walkLinks_dotDot.symm.trans h)
    exact ⟨used, le, mid, .up way⟩
  | long links here name rest _ _ long =>
    cases (walkLinks_long long (List.not_mem_of_not_mem_cons plain)).symm.trans h
  | proper links here name rest _ _ proper ih followed =>
    have plainRest : trailingSlash ∉ rest ++ more := List.not_mem_of_not_mem_cons plain
    rw [List.cons_append, walkLinks_proper proper plainRest] at h
    cases found : fs.entry? (here ++ [name]) with
    | none =>
      rw [enter_missing found, if_neg (goesOn rest)] at h
      cases h
    | some entry =>
      cases entry with
      | directory =>
        obtain ⟨used, le, mid, way⟩ := ih plainRest ((enter_directory found).symm.trans h)
        exact ⟨used, le, mid, .into proper found way⟩
      | file n =>
        rw [enter_file found, if_neg (goesOn rest)] at h
        cases h
      | link target =>
        rw [enter_link found, if_neg fun last => goesOn rest last.1] at h
        cases links with
        | zero => cases h
        | succ links =>
          have plainTarget := plain_onward plainRest target
          simp only [follower] at h
          rw [← List.append_assoc] at plainTarget h
          obtain ⟨used, le, mid, way⟩ := followed links target
            (fun there => plainTarget (List.mem_append_left _ there)) rfl plainTarget h
          exact ⟨used + 1, Nat.succ_le_succ le, mid, .through proper found way⟩

/-! ## What is found -/

theorem find_eq_ok : fs.find follow p = .ok (at_, entry) ↔ checkPath p = .ok () ∧
    fs.walkLinks Path.steps follow maxLinks (fs.start p) p.steps = .ok (.found at_ entry) := by
  rw [← lookup_eq_ok, find]
  cases fs.lookup follow p with
  | error e => simp
  | ok place => cases place <;> simp

theorem Extends.find (h : fs'.Extends fs) (start : fs'.working = fs.working)
    (found : fs.find follow p = .ok (at_, entry)) : fs'.find follow p = .ok (at_, entry) := by
  obtain ⟨check, walk⟩ := find_eq_ok.mp found
  have origin : fs'.start p = fs.start p := by rw [FileSystem.start, start, FileSystem.start]
  refine find_eq_ok.mpr ⟨check, ?_⟩
  rw [origin]
  exact walkLinks_extends h (Nat.le_refl _) walk

/-- A slash behind the names stands for dots. -/
theorem steps_eq_append (p : Path) :
    ∃ dots, (∀ d ∈ dots, d = Path.dot) ∧ p.steps = p.names ++ dots := by
  unfold Path.steps
  split_ifs
  · exact ⟨[Path.dot], by simp, rfl⟩
  · exact ⟨[], by simp, by simp⟩

theorem walkLinks_dots {dots : List Name} (h : ∀ d ∈ dots, d = Path.dot) :
    fs.walkLinks Path.steps follow links here dots = .ok (.found here .directory) := by
  induction dots with
  | nil => exact walkLinks_nil
  | cons d dots ih =>
    rw [h d List.mem_cons_self, walkLinks_dot]
    exact ih fun d there => h d (List.mem_cons_of_mem _ there)

/-- A vacant place is a name that a directory does not have, and the names before it lead there. -/
theorem site_eq_vacant (h : fs.site p = .ok (.vacant dir name)) : checkPath p = .ok () ∧
    ∃ front, ∃ used ≤ maxLinks, p.names = front ++ [name] ∧ Proper name ∧
      Leads fs used (fs.start p) front dir ∧ fs.entry? (dir ++ [name]) = none := by
  unfold site at h
  cases check : checkPath p with
  | error e => simp [check, Bind.bind, Except.bind] at h
  | ok =>
    simp only [check, Bind.bind, Except.bind] at h
    refine ⟨rfl, ?_⟩
    have free : fs.entry? (dir ++ [name]) = none := fits_of_walkLinks h
    rcases List.eq_nil_or_concat p.names with none | ⟨front, last, names⟩
    · rw [none, walkLinks_nil] at h
      cases h
    rw [List.concat_eq_append] at names
    have plain := trailingSlash_not_mem_names p
    rw [names] at plain h
    obtain ⟨used, le, mid, way⟩ := leads_of_walkLinks_append plain (by simp) h
    rw [way.walkLinks_append le plain (.inr (by simp))] at h
    have notSlash : last ≠ trailingSlash := fun same => plain (by simp [same])
    rcases name_cases notSlash with rfl | rfl | long | proper
    · rw [walkLinks_dot, walkLinks_nil] at h
      cases h
    · rw [walkLinks_dotDot, walkLinks_nil] at h
      cases h
    · cases (walkLinks_long long List.not_mem_nil).symm.trans h
    rw [walkLinks_proper proper List.not_mem_nil] at h
    cases found : fs.entry? (mid ++ [last]) with
    | none =>
      simp only [enter_missing found, if_true, Except.ok.injEq, Place.vacant.injEq] at h
      obtain ⟨rfl, rfl⟩ := h
      exact ⟨front, used, le, names, proper, way, free⟩
    | some entry => cases entry <;> simp [enter, found, walkLinks_nil] at h

/-- A path leads to the directory that has been made for it. -/
theorem find_of_makeDirectory (h : fs.makeDirectory p = .ok made) : ∃ dir name,
    fs.entry? (dir ++ [name]) = none ∧ made = fs.setEntry (dir ++ [name]) .directory ∧
      made.find true p = .ok (dir ++ [name], .directory) := by
  unfold makeDirectory at h
  split at h
  · cases h
  · cases h
  rename_i dir name place
  obtain rfl := Except.ok.inj h
  obtain ⟨check, front, used, le, names, proper, way, free⟩ := site_eq_vacant place
  refine ⟨dir, name, free, rfl, find_eq_ok.mpr ⟨check, ?_⟩⟩
  have there : entry? (fs.setEntry (dir ++ [name]) .directory) (dir ++ [name]) =
      some .directory := by
    rw [entry?_setEntry (by simp), if_pos rfl]
  obtain ⟨dots, onlyDots, steps⟩ := steps_eq_append p
  rw [names, List.append_assoc, List.singleton_append] at steps
  have plain := trailingSlash_not_mem_steps p
  rw [steps] at plain ⊢
  have plainDots : trailingSlash ∉ dots := fun there => by
    cases onlyDots _ there
  refine ((way.extends (extends_setEntry free)).walkLinks_append le plain (.inl rfl)).trans ?_
  rw [walkLinks_proper proper plainDots, enter_directory there]
  exact walkLinks_dots onlyDots

/-! ## What is added -/

/-- All that the first file system has besides the second one is directories, each where one of the
paths leads. -/
structure Deepened (paths : List Path) (fs' fs : FileSystem) : Prop where
  entry : ∀ at_, fs'.entry? at_ = fs.entry? at_ ∨
    fs.entry? at_ = none ∧ fs'.entry? at_ = some .directory ∧
      ∃ p ∈ paths, fs'.find true p = .ok (at_, .directory)
  nodes : fs'.nodes = fs.nodes
  working : fs'.working = fs.working

theorem Deepened.refl (paths : List Path) (fs : FileSystem) : Deepened paths fs fs :=
  ⟨fun _ => .inl rfl, rfl, rfl⟩

theorem Deepened.extends (h : Deepened paths fs' fs) : fs'.Extends fs := by
  intro at_ entry found
  rcases h.entry at_ with same | ⟨free, -⟩
  · exact same.trans found
  · rw [free] at found
    cases found

theorem Deepened.trans (h : Deepened paths fs'' fs') (h' : Deepened paths fs' fs) :
    Deepened paths fs'' fs where
  entry at_ := by
    rcases h.entry at_ with same | ⟨free, made, way⟩
    · rcases h'.entry at_ with same' | ⟨free, made, p, inside, way⟩
      · exact .inl (same.trans same')
      · exact .inr ⟨free, same.trans made, p, inside, h.extends.find h.working way⟩
    · rcases h'.entry at_ with same' | ⟨-, there, -⟩
      · exact .inr ⟨same'.symm.trans free, made, way⟩
      · rw [free] at there
        cases there
  nodes := h.nodes.trans h'.nodes
  working := h.working.trans h'.working

theorem Deepened.mono {paths' : List Path} (h : Deepened paths fs' fs) (le : paths ⊆ paths') :
    Deepened paths' fs' fs where
  entry at_ := (h.entry at_).imp_right fun ⟨free, made, p, inside, way⟩ =>
    ⟨free, made, p, le inside, way⟩
  nodes := h.nodes
  working := h.working

theorem deepened_makeDirectory (h : fs.makeDirectory p = .ok made) (inside : p ∈ paths) :
    Deepened paths made fs := by
  obtain ⟨dir, name, free, rfl, way⟩ := find_of_makeDirectory h
  refine ⟨fun at_ => ?_, rfl, rfl⟩
  rw [entry?_setEntry (by simp)]
  by_cases here : at_ = dir ++ [name]
  · subst here
    exact .inr ⟨free, if_pos rfl, p, inside, way⟩
  · exact .inl (if_neg here)

theorem deepened_makeChain (paths : List Path) : Deepened paths (fs.makeChain paths).2 fs := by
  induction paths with
  | nil => exact .refl [] fs
  | cons p shorter ih =>
    have above := ih.mono (List.subset_cons_self p shorter)
    unfold makeChain
    split
    · rename_i made h
      exact deepened_makeDirectory h List.mem_cons_self
    · split
      · rename_i e left h
        rw [h] at above
        exact above
      · rename_i left h
        rw [h] at above
        split
        · rename_i made last
          exact (deepened_makeDirectory last List.mem_cons_self).trans above
        · split_ifs <;> exact above
    · split_ifs <;> exact .refl _ fs

end CobolDialects.FileSystem
