import CobolDialects.Proofs.FileSystem.Enclosing

/-!
# Keeping away from a region

A region is a set of locations. A path keeps away from it if no look-up of the path comes to one of
them, whatever there is on the way: behind each name it is looked up as if there were a directory,
and by way of the link that is there. So a path goes on to keep away as long as no links are added.
-/

namespace CobolDialects.FileSystem

variable {fs fs' : FileSystem} {region : Set Location} {follow : Bool} {here dir at_ : Location}
  {name : Name} {names names' more rest : List Name} {p q : Path} {entry : Entry}

/-- A look-up of names from a directory may come to a location. -/
inductive Visits (fs : FileSystem) : Location → List Name → Location → Prop
  | dot {here at_ : Location} {rest : List Name} (next : Visits fs here rest at_) :
    Visits fs here (Path.dot :: rest) at_
  | up {here at_ : Location} {rest : List Name} (next : Visits fs here.dropLast rest at_) :
    Visits fs here (Path.dotDot :: rest) at_
  | name {here : Location} {name : Name} {rest : List Name} (notDot : name ≠ Path.dot)
    (notUp : name ≠ Path.dotDot) : Visits fs here (name :: rest) (here ++ [name])
  | into {here at_ : Location} {name : Name} {rest : List Name} (proper : Proper name)
    (next : Visits fs (here ++ [name]) rest at_) : Visits fs here (name :: rest) at_
  | through {here at_ : Location} {name : Name} {rest : List Name} {target : Path}
    (proper : Proper name) (link : fs.entry? (here ++ [name]) = some (.link target))
    (next : Visits fs (linkStart here target) (target.steps ++ rest) at_) :
    Visits fs here (name :: rest) at_

theorem Visits.append (h : Visits fs here names at_) (more : List Name) :
    Visits fs here (names ++ more) at_ := by
  induction h with
  | dot _ ih => exact .dot ih
  | up _ ih => exact .up ih
  | name notDot notUp => exact .name notDot notUp
  | into proper _ ih => exact .into proper ih
  | through proper link _ ih =>
    rw [List.append_assoc] at ih
    exact .through proper link ih

theorem Visits.dots {dots : List Name} (h : Visits fs here names at_)
    (only : ∀ d ∈ dots, d = Path.dot) : Visits fs here (dots ++ names) at_ := by
  induction dots with
  | nil => exact h
  | cons d dots ih =>
    obtain rfl := only d List.mem_cons_self
    exact .dot (ih fun d there => only d (List.mem_cons_of_mem _ there))

/-- Dots do not matter for where names lead. -/
theorem Visits.congr (h : Visits fs here names at_)
    (same : names'.filter (· ≠ Path.dot) = names.filter (· ≠ Path.dot)) :
    Visits fs here names' at_ := by
  -- A name that counts stands behind some dots, with names behind it that are the same but for
  -- dots.
  have split {name : Name} {rest names' : List Name} (notDot : name ≠ Path.dot)
      (same : names'.filter (· ≠ Path.dot) = (name :: rest).filter (· ≠ Path.dot)) :
      ∃ dots rest', names' = dots ++ name :: rest' ∧ (∀ d ∈ dots, d = Path.dot) ∧
        rest'.filter (· ≠ Path.dot) = rest.filter (· ≠ Path.dot) := by
    rw [List.filter_cons_of_pos (by simpa using notDot)] at same
    obtain ⟨dots, rest', parts, only, -, behind⟩ := List.filter_eq_cons_iff.mp same
    exact ⟨dots, rest', parts, fun d there => by simpa using only d there, behind⟩
  induction h generalizing names' with
  | dot _ ih =>
    rw [List.filter_cons_of_neg (by simp)] at same
    exact ih same
  | up _ ih =>
    obtain ⟨dots, rest', rfl, only, behind⟩ := split (by decide) same
    exact (Visits.up (ih behind)).dots only
  | name notDot notUp =>
    obtain ⟨dots, rest', rfl, only, -⟩ := split notDot same
    exact (Visits.name notDot notUp).dots only
  | into proper _ ih =>
    obtain ⟨dots, rest', rfl, only, behind⟩ := split proper.notDot same
    exact (Visits.into proper (ih behind)).dots only
  | through proper link _ ih =>
    obtain ⟨dots, rest', rfl, only, behind⟩ := split proper.notDot same
    refine (Visits.through proper link (ih ?_)).dots only
    rw [List.filter_append, List.filter_append, behind]

/-- What is visited from the directory to which names lead is visited by way of them. -/
theorem Leads.visits {used : Nat} (h : Leads fs used here names dir)
    (behind : Visits fs dir more at_) :
    Visits fs here (names ++ more) at_ := by
  induction h with
  | here => exact behind
  | dot _ ih => exact .dot (ih behind)
  | up _ ih => exact .up (ih behind)
  | into proper _ _ ih => exact .into proper (ih behind)
  | through proper link _ ih =>
    have ih := ih behind
    rw [List.append_assoc] at ih
    exact .through proper link ih

/-- Whatever is found that is no directory is visited. -/
theorem visits_of_walkLinks {links : Nat} (plain : trailingSlash ∉ names)
    (h : fs.walkLinks Path.steps follow links here names = .ok (.found at_ entry))
    (notDirectory : entry ≠ .directory) : Visits fs here names at_ := by
  induction links, here, names, plain using plain_induction with
  | nil =>
    rw [walkLinks_nil] at h
    cases h
    exact absurd rfl notDirectory
  | dot links here rest _ _ ih =>
    rw [walkLinks_dot] at h
    exact .dot (ih h)
  | up links here rest _ _ ih =>
    rw [walkLinks_dotDot] at h
    exact .up (ih h)
  | long links here name rest _ plainRest long =>
    rw [walkLinks_long long plainRest] at h
    cases h
  | proper links here name rest _ plainRest proper ih followed =>
    rw [walkLinks_proper proper plainRest] at h
    cases there : fs.entry? (here ++ [name]) with
    | none =>
      rw [enter_missing there] at h
      split_ifs at h
      cases h
    | some passed =>
      cases passed with
      | directory =>
        rw [enter_directory there] at h
        exact .into proper (ih h)
      | file n =>
        rw [enter_file there] at h
        split_ifs at h
        cases h
        exact .name proper.notDot proper.notDotDot
      | link target =>
        rw [enter_link there] at h
        split_ifs at h
        · cases h
          exact .name proper.notDot proper.notDotDot
        · cases links with
          | zero => cases h
          | succ links =>
            exact .through proper there
              (followed links target (plain_onward plainRest target) rfl h)

/-! ## Regions -/

/-- No look-up of names from a directory comes into the region. -/
def AwayFrom (fs : FileSystem) (region : Set Location) (here : Location) (names : List Name) :
    Prop :=
  ∀ at_, Visits fs here names at_ → at_ ∉ region

/-- No look-up of a path comes into the region. -/
def Away (fs : FileSystem) (region : Set Location) (p : Path) : Prop :=
  fs.AwayFrom region (fs.start p) p.steps

namespace AwayFrom

theorem of_append (h : fs.AwayFrom region here (names ++ more)) : fs.AwayFrom region here names :=
  fun at_ visited => h at_ (visited.append more)

theorem congr (h : fs.AwayFrom region here names)
    (same : names'.filter (· ≠ Path.dot) = names.filter (· ≠ Path.dot)) :
    fs.AwayFrom region here names' := fun at_ visited => h at_ (visited.congr same.symm)

theorem dot (h : fs.AwayFrom region here (Path.dot :: rest)) : fs.AwayFrom region here rest :=
  fun at_ visited => h at_ (.dot visited)

theorem up (h : fs.AwayFrom region here (Path.dotDot :: rest)) :
    fs.AwayFrom region here.dropLast rest := fun at_ visited => h at_ (.up visited)

theorem outside (h : fs.AwayFrom region here (name :: rest)) (proper : Proper name) :
    here ++ [name] ∉ region := h _ (.name proper.notDot proper.notDotDot)

theorem into (h : fs.AwayFrom region here (name :: rest)) (proper : Proper name) :
    fs.AwayFrom region (here ++ [name]) rest := fun at_ visited => h at_ (.into proper visited)

theorem through {target : Path} (h : fs.AwayFrom region here (name :: rest)) (proper : Proper name)
    (link : fs.entry? (here ++ [name]) = some (.link target)) :
    fs.AwayFrom region (linkStart here target) (target.steps ++ rest) :=
  fun at_ visited => h at_ (.through proper link visited)

/-- Where no links are added outside the region, names keep away from it. -/
theorem of_links (h : fs.AwayFrom region here names)
    (links : ∀ at_ ∉ region, ∀ target, fs'.entry? at_ = some (.link target) →
      fs.entry? at_ = some (.link target)) : fs'.AwayFrom region here names := by
  intro at_ visited
  induction visited with
  | dot _ ih => exact ih h.dot
  | up _ ih => exact ih h.up
  | name notDot notUp => exact h _ (.name notDot notUp)
  | into proper _ ih => exact ih (h.into proper)
  | through proper link _ ih => exact ih (h.through proper (links _ (h.outside proper) _ link))

end AwayFrom

theorem Away.onNames (h : fs.Away region p) : fs.AwayFrom region (fs.start p) p.names :=
  AwayFrom.congr h (filter_steps p).symm

theorem away_of_names (h : fs.AwayFrom region (fs.start p) p.names) : fs.Away region p :=
  AwayFrom.congr h (filter_steps p)

theorem Above.away (above : Above q p) (h : fs.Away region p) : fs.Away region q := by
  obtain ⟨name, names⟩ := above.names
  have longer := h.onNames
  rw [names, ← above.start] at longer
  exact away_of_names longer.of_append

theorem Away.directory? {dir : Path} (h : fs.Away region p) (directory : p.directory? = some dir) :
    fs.Away region dir := by
  obtain ⟨-, front, more, names, -, same⟩ := Path.names_of_directory? directory
  have longer := h.onNames
  rw [names, ← start_directory? directory] at longer
  exact away_of_names (longer.of_append.congr same.symm)

/-- So do the directories above a path, each by way of the next one. -/
theorem away_of_isChain {paths : List Path} (nested : (p :: paths).IsChain fun p q => Above q p)
    (h : fs.Away region p) (inside : q ∈ p :: paths) : fs.Away region q := by
  induction paths generalizing p with
  | nil =>
    obtain rfl := List.mem_singleton.mp inside
    exact h
  | cons next paths ih =>
    rw [List.isChain_cons_cons] at nested
    rcases List.mem_cons.mp inside with rfl | inside
    · exact h
    · exact ih nested.2 (nested.1.away h) inside

end CobolDialects.FileSystem
