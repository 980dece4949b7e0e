import CobolDialects.Proofs.FileSystem.Chains

/-!
# The directory above a path

A path is looked up by way of the directory above it: on the way to anything behind them, dots do
not count. So what is in the way of the directory is in the way of the path.
-/

namespace CobolDialects.FileSystem

variable {fs : FileSystem} {follow : Bool} {here : Location} {names names' more : List Name}
  {p dir : Path} {e : Fault}

/-! ## Dots on the way -/

theorem walkLinks_filter_dots {links : Nat} (plain : trailingSlash ∉ names ++ more)
    (some : more ≠ []) :
    fs.walkLinks Path.steps follow links here (names.filter (· ≠ Path.dot) ++ more) =
      fs.walkLinks Path.steps follow links here (names ++ more) := by
  have goesOn (front : List Name) : front ++ more ≠ [] := fun none =>
    some (List.append_eq_nil_iff.mp none).2
  -- A link's target comes before the names with and without the dots, so both have to be covered.
  induction links using Nat.strongRecOn generalizing here names with
  | ind links followed =>
    induction names generalizing here with
    | nil => rfl
    | cons name rest ih =>
      rw [List.cons_append] at plain ⊢
      have plainRest : trailingSlash ∉ rest ++ more := List.not_mem_of_not_mem_cons plain
      have plainFew : trailingSlash ∉ rest.filter (· ≠ Path.dot) ++ more := fun there =>
        plainRest (List.filter_sublist.append_right more |>.subset there)
      by_cases isDot : name = Path.dot
      · rw [List.filter_cons_of_neg (by simpa using isDot), isDot, walkLinks_dot]
        exact ih plainRest
      rw [List.filter_cons_of_pos (by simpa using isDot), List.cons_append]
      rcases name_cases fun same => plain (same ▸ List.mem_cons_self) with dot | rfl | long | proper
      · exact absurd dot isDot
      · rw [walkLinks_dotDot, walkLinks_dotDot]
        exact ih plainRest
      · rw [walkLinks_long long plainRest, walkLinks_long long plainFew]
      rw [walkLinks_proper proper plainRest, walkLinks_proper proper plainFew, enter, enter]
      cases fs.entry? (here ++ [name]) with
      | none => simp only [goesOn, if_false]
      | some entry =>
        cases entry with
        | directory => exact ih plainRest
        | file n => simp only [goesOn, if_false]
        | link target =>
          simp only [goesOn, false_and, if_false]
          cases links with
          | zero => rfl
          | succ links =>
            have onward (front : List Name) (plain : trailingSlash ∉ front ++ more) :
                fs.walkLinks Path.steps follow links (linkStart here target)
                    ((target.steps ++ front).filter (· ≠ Path.dot) ++ more) =
                  fs.walkLinks Path.steps follow links (linkStart here target)
                    ((target.steps ++ front) ++ more) := by
              refine followed links (Nat.lt_succ_self _) ?_
              rw [List.append_assoc]
              exact plain_onward plain target
            have all := onward rest plainRest
            have few := onward _ plainFew
            rw [List.filter_append, List.append_assoc target.steps] at all few
            rw [List.filter_filter] at few
            simp only [Bool.and_self] at few
            exact few.symm.trans all

theorem walkLinks_of_filter_dots {links : Nat}
    (same : names.filter (· ≠ Path.dot) = names'.filter (· ≠ Path.dot))
    (plain : trailingSlash ∉ names ++ more) (plain' : trailingSlash ∉ names' ++ more)
    (some : more ≠ []) :
    fs.walkLinks Path.steps follow links here (names ++ more) =
      fs.walkLinks Path.steps follow links here (names' ++ more) := by
  rw [← walkLinks_filter_dots plain some, same, walkLinks_filter_dots plain' some]

theorem filter_steps (p : Path) :
    p.steps.filter (· ≠ Path.dot) = p.names.filter (· ≠ Path.dot) := by
  obtain ⟨dots, onlyDots, steps⟩ := steps_eq_append p
  have none : dots.filter (· ≠ Path.dot) = [] :=
    List.filter_eq_nil_iff.mpr fun d there => by simpa using onlyDots d there
  rw [steps, List.filter_append, none, List.append_nil]

/-! ## By way of the directory -/

theorem start_directory? (h : p.directory? = some dir) : fs.start dir = fs.start p := by
  rw [start, start, (Path.names_of_directory? h).1]

theorem checkPath_directory? (h : p.directory? = some dir) (check : checkPath p = .ok ()) :
    checkPath dir = .ok () := by
  obtain ⟨noNul, short, -⟩ := checkPath_eq_ok.mp check
  have shorter := Path.directory?_sublist h
  exact checkPath_eq_ok.mpr ⟨fun there => noNul (shorter.subset there),
    Nat.lt_of_le_of_lt shorter.length_le short, (Path.directory?_eq_some h).2.1⟩

/-- The names of a path are, but for dots, those of the directory and some more. -/
theorem exists_steps_behind (h : p.directory? = some dir) : ∃ more ≠ [],
    trailingSlash ∉ more ∧ ∀ names, trailingSlash ∉ names →
      names.filter (· ≠ Path.dot) = dir.names.filter (· ≠ Path.dot) →
      ∀ fs follow links here, walkLinks fs Path.steps follow links here p.steps =
        walkLinks fs Path.steps follow links here (names ++ more) := by
  obtain ⟨-, front, last, split, some, same⟩ := Path.names_of_directory? h
  obtain ⟨dots, -, steps⟩ := steps_eq_append p
  have plain := trailingSlash_not_mem_steps p
  rw [steps, split, List.append_assoc] at plain
  refine ⟨last ++ dots, by simp [some], fun there => plain (List.mem_append_right _ there), ?_⟩
  intro names plainNames same' fs follow links here
  rw [steps, split, List.append_assoc]
  refine walkLinks_of_filter_dots (same.trans same'.symm) plain ?_ (by simp [some])
  exact fun there => (List.mem_append.mp there).elim plainNames fun there =>
    plain (List.mem_append_right _ there)

/-- What is in the way of the directory above a path, and is not that something is missing, is in
the way of the path. -/
theorem fileNode_of_site (h : p.directory? = some dir) (check : checkPath p = .ok ())
    (site : fs.site dir = .error e) (ne : e ≠ .notFound) : fs.fileNode p = .error e := by
  obtain ⟨more, some, plain, steps⟩ := exists_steps_behind h
  have plainNames := trailingSlash_not_mem_names dir
  rw [site_eq_walk (checkPath_directory? h check), start_directory? h] at site
  have refused : fs.walkLinks Path.steps true maxLinks (fs.start p) p.steps = .error e := by
    rw [steps _ plainNames rfl]
    refine walkLinks_error_append site ne ?_ some
    exact fun there => (List.mem_append.mp there).elim plainNames plain
  unfold fileNode find lookup
  simp only [check, refused, Bind.bind, Except.bind]

end CobolDialects.FileSystem
