import CobolDialects.Proofs.FileSystem.Chains

/-!
# File systems that are alike

Names that no path and no link speaks of are hidden. What is kept under hidden names matters for no
look-up, and so neither for the directories that are made.
-/

namespace CobolDialects.FileSystem

variable {hidden : Name → Prop} {fs fs' made base : FileSystem} {follow : Bool}
  {here dir : Location}
  {name : Name} {names : List Name} {p : Path} {paths : List Path} {n : Nat}

/-- The names can be looked up without coming to a hidden one. -/
def Visible (hidden : Name → Prop) (names : List Name) : Prop := ∀ name ∈ names, ¬hidden name

/-- Links do not speak of hidden names. -/
structure Clear (hidden : Name → Prop) (fs : FileSystem) : Prop where
  dot : ¬hidden Path.dot
  links : ∀ at_ target, fs.entry? at_ = some (.link target) → Visible hidden target.names

/-- Two file systems differ in hidden names only. -/
structure Alike (hidden : Name → Prop) (fs' fs : FileSystem) : Prop where
  entry : ∀ dir name, ¬hidden name → fs'.entry? (dir ++ [name]) = fs.entry? (dir ++ [name])
  working : fs'.working = fs.working

theorem Alike.refl (hidden : Name → Prop) (fs : FileSystem) : Alike hidden fs fs :=
  ⟨fun _ _ _ => rfl, rfl⟩

theorem Alike.trans (h : Alike hidden fs' fs) (h' : Alike hidden fs base) :
    Alike hidden fs' base where
  entry dir name visible := (h.entry dir name visible).trans (h'.entry dir name visible)
  working := h.working.trans h'.working

theorem visible_append {more : List Name} :
    Visible hidden (names ++ more) ↔ Visible hidden names ∧ Visible hidden more := by
  simp only [Visible, List.mem_append, or_imp, forall_and]

theorem Clear.visible_steps (h : Clear hidden fs) (visible : Visible hidden p.names) :
    Visible hidden p.steps := by
  obtain ⟨dots, onlyDots, steps⟩ := steps_eq_append p
  rw [steps, visible_append]
  exact ⟨visible, fun d there => onlyDots d there ▸ h.dot⟩

theorem Clear.of_deepened (h : Clear hidden fs) (deepened : Deepened paths made fs) :
    Clear hidden made where
  dot := h.dot
  links at_ target link := by
    rcases deepened.entry at_ with same | ⟨-, directory, -⟩
    · exact h.links at_ target (same.symm.trans link)
    · rw [directory] at link
      cases link

/-! ## Look-ups -/

theorem Alike.walkLinks {links : Nat} (h : Alike hidden fs' fs) (clear : Clear hidden fs)
    (visible : Visible hidden names) :
    fs'.walkLinks Path.steps follow links here names =
      fs.walkLinks Path.steps follow links here names := by
  induction links, here, names using lookUp_induction with
  | nil => rw [walkLinks_nil, walkLinks_nil]
  | cons links here name rest ih followed =>
    have visibleRest : Visible hidden rest :=
      fun n there => visible n (List.mem_cons_of_mem _ there)
    rcases walkLinks_cases name rest with same | same | ⟨e, same⟩ | same
    · rw [same, same]
      exact ih here visibleRest
    · rw [same, same]
      exact ih here.dropLast visibleRest
    · rw [same, same]
    rw [same, same, enter, enter, h.entry here name (visible name List.mem_cons_self)]
    cases found : fs.entry? (here ++ [name]) with
    | none => rfl
    | some entry =>
      cases entry with
      | directory => exact ih _ visibleRest
      | file n => rfl
      | link target =>
        have jumps : fs'.follower follow links here target rest =
            fs.follower follow links here target rest := by
          cases links with
          | zero => rfl
          | succ links =>
            refine followed links _ target rfl (visible_append.mpr ⟨?_, visibleRest⟩)
            exact clear.visible_steps (clear.links _ _ found)
        simp only [jumps]

theorem Alike.start (h : Alike hidden fs' fs) : fs'.start p = fs.start p := by
  rw [FileSystem.start, FileSystem.start, h.working]

theorem Alike.find (h : Alike hidden fs' fs) (clear : Clear hidden fs)
    (visible : Visible hidden p.names) : fs'.find follow p = fs.find follow p := by
  have walk : fs'.walkLinks Path.steps follow maxLinks (fs.start p) p.steps =
      fs.walkLinks Path.steps follow maxLinks (fs.start p) p.steps :=
    h.walkLinks clear (clear.visible_steps visible)
  unfold FileSystem.find lookup
  rw [h.start, walk]

theorem Alike.isDirectory (h : Alike hidden fs' fs) (clear : Clear hidden fs)
    (visible : Visible hidden p.names) : fs'.isDirectory p = fs.isDirectory p := by
  unfold FileSystem.isDirectory
  rw [h.find clear visible]

theorem Alike.directory (h : Alike hidden fs' fs) (clear : Clear hidden fs)
    (visible : Visible hidden p.names) : fs'.directory p = fs.directory p := by
  unfold FileSystem.directory
  rw [h.find clear visible]

theorem Alike.fileNode (h : Alike hidden fs' fs) (clear : Clear hidden fs)
    (visible : Visible hidden p.names) : fs'.fileNode p = fs.fileNode p := by
  unfold FileSystem.fileNode
  rw [h.find clear visible]

theorem Alike.site (h : Alike hidden fs' fs) (clear : Clear hidden fs)
    (visible : Visible hidden p.names) : fs'.site p = fs.site p := by
  unfold FileSystem.site
  rw [h.start, h.walkLinks clear visible]

/-! ## Changes -/

theorem Alike.setEntry {at_ : Location} {entry : Entry} (h : Alike hidden fs' fs)
    (proper : at_ ≠ []) : Alike hidden (fs'.setEntry at_ entry) (fs.setEntry at_ entry) where
  entry dir name visible := by
    rw [entry?_setEntry proper, entry?_setEntry proper, h.entry dir name visible]
  working := h.working

theorem ne_of_visible {dir' : Location} {name' : Name} (visible : ¬hidden name')
    (secret : hidden name) : dir' ++ [name'] ≠ dir ++ [name] := by
  intro same
  obtain rfl : name' = name := by simpa using List.append_inj_right' same rfl
  exact visible secret

/-- A hidden file that is added is not seen. -/
theorem alike_addFile (secret : hidden name) (node : Node) :
    Alike hidden (fs.addFile (dir ++ [name]) node) fs where
  entry dir' name' visible := by
    rw [addFile, entry?_setEntry (by simp), if_neg (ne_of_visible visible secret)]
    rfl
  working := rfl

theorem alike_removeEntry (secret : hidden name) :
    Alike hidden (fs.removeEntry (dir ++ [name])) fs where
  entry dir' name' visible := by
    rw [entry?_removeEntry (by simp), if_neg (ne_of_visible visible secret)]
  working := rfl

theorem alike_setContent (content : Content) : Alike hidden (fs.setContent n content) fs :=
  ⟨fun _ _ _ => rfl, rfl⟩

theorem Alike.makeDirectory_error {e : Fault} (h : Alike hidden fs' fs) (clear : Clear hidden fs)
    (visible : Visible hidden p.names) (refused : fs.makeDirectory p = .error e) :
    fs'.makeDirectory p = .error e := by
  unfold FileSystem.makeDirectory at refused ⊢
  rw [h.site clear visible]
  split at refused
  · simpa using refused
  · simpa using refused
  · cases refused

theorem Alike.makeDirectory_ok (h : Alike hidden fs' fs) (clear : Clear hidden fs)
    (visible : Visible hidden p.names) (done : fs.makeDirectory p = .ok made) :
    ∃ made', fs'.makeDirectory p = .ok made' ∧ Alike hidden made' made := by
  unfold FileSystem.makeDirectory at done ⊢
  rw [h.site clear visible]
  split at done
  · cases done
  · cases done
  · rename_i dir name place
    obtain rfl := Except.ok.inj done
    exact ⟨_, rfl, h.setEntry (by simp)⟩

/-- Where each directory is made in two file systems alike, and they stay related, a chain is. -/
theorem makeChain_related {R : FileSystem → FileSystem → Prop}
    (error : ∀ {fs fs' p e}, R fs fs' → p ∈ paths → fs.makeDirectory p = .error e →
      fs'.makeDirectory p = .error e)
    (ok : ∀ {fs fs' p made}, R fs fs' → p ∈ paths → fs.makeDirectory p = .ok made →
      ∃ made', fs'.makeDirectory p = .ok made' ∧ R made made')
    (isDirectory : ∀ {fs fs' p}, R fs fs' → p ∈ paths → fs'.isDirectory p = fs.isDirectory p)
    (related : R fs fs') :
    (fs'.makeChain paths).1 = (fs.makeChain paths).1 ∧
      R (fs.makeChain paths).2 (fs'.makeChain paths).2 := by
  induction paths with
  | nil => exact ⟨rfl, related⟩
  | cons p shorter ih =>
    have own : p ∈ p :: shorter := List.mem_cons_self
    cases first : fs.makeDirectory p with
    | ok made =>
      obtain ⟨made', first', still⟩ := ok related own first
      rw [makeChain_of_made first, makeChain_of_made first']
      exact ⟨rfl, still⟩
    | error e =>
      have first' := error related own first
      by_cases absent : e = .notFound
      swap
      · rw [makeChain_of_error first absent, makeChain_of_error first' absent,
          isDirectory related own]
        exact ⟨rfl, related⟩
      subst absent
      obtain ⟨same, still⟩ := ih (fun related there => error related (List.mem_cons_of_mem _ there))
        (fun related there => ok related (List.mem_cons_of_mem _ there))
        fun related there => isDirectory related (List.mem_cons_of_mem _ there)
      cases before : fs.makeChain shorter with
      | mk result above =>
        rw [before] at same still
        have before' : fs'.makeChain shorter = (result, (fs'.makeChain shorter).2) :=
          Prod.ext same rfl
        cases result with
        | error e =>
          rw [makeChain_of_failed first before, makeChain_of_failed first' before']
          exact ⟨rfl, still⟩
        | ok =>
          cases last : above.makeDirectory p with
          | ok made =>
            obtain ⟨made', last', still⟩ := ok still own last
            rw [makeChain_of_last first before last, makeChain_of_last first' before' last']
            exact ⟨rfl, still⟩
          | error e =>
            have last' := error still own last
            rw [makeChain_of_done first before last, makeChain_of_done first' before' last',
              isDirectory still own]
            exact ⟨rfl, still⟩

/-- Directories are made in both file systems alike. -/
theorem Alike.makeChain (h : Alike hidden fs' fs) (clear : Clear hidden fs)
    (visible : ∀ p ∈ paths, Visible hidden p.names) :
    (fs'.makeChain paths).1 = (fs.makeChain paths).1 ∧
      Alike hidden (fs'.makeChain paths).2 (fs.makeChain paths).2 := by
  have related := makeChain_related (R := fun fs fs' => Alike hidden fs' fs ∧ Clear hidden fs)
    (fun h there => h.1.makeDirectory_error h.2 (visible _ there))
    (fun h there done =>
      have ⟨made', done', alike⟩ := h.1.makeDirectory_ok h.2 (visible _ there) done
      ⟨made', done', alike, h.2.of_deepened (deepened_makeDirectory done there)⟩)
    (fun h there => h.1.isDirectory h.2 (visible _ there)) ⟨h, clear⟩
  exact ⟨related.1, related.2.1⟩

end CobolDialects.FileSystem
