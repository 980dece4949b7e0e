import CobolDialects.FileSystem.Change
import Mathlib.Tactic.Common

/-!
# Looking up paths

A look-up that comes to a directory passes directories and symbolic links only, so it is the same in
every file system that has these entries. `Leads` tells such a look-up as a derivation, one step for
each name.
-/

namespace CobolDialects.FileSystem

variable {fs fs' : FileSystem} {follow : Bool} {here dir : Location} {name : Name}
  {names rest more : List Name} {target : Path} {place : Place} {links : Nat}

/-- A name that is looked up in a directory. -/
structure Proper (name : Name) : Prop where
  notDot : name ≠ Path.dot
  notDotDot : name ≠ Path.dotDot
  notSlash : name ≠ trailingSlash
  short : name.length ≤ maxNameLength

/-- Where the target of a link in a directory starts. -/
def linkStart (here : Location) (target : Path) : Location := if target.isAbsolute then [] else here

/-- What is done with links as long as some may be followed. -/
def follower (fs : FileSystem) (follow : Bool) :
    Nat → Location → Path → List Name → Except Fault Place
  | 0 => fun _ _ _ => .error .tooManyLinks
  | links + 1 => fun here target rest =>
    fs.walkLinks Path.steps follow links (linkStart here target) (target.steps ++ rest)

theorem walkLinks_eq (links : Nat) : fs.walkLinks Path.steps follow links here names =
    fs.walk follow (fs.follower follow links) here names := by
  cases links <;> rfl

/-! ## One name -/

/-- What a look-up does with a name that it looks up in a directory. -/
def enter (fs : FileSystem) (follow : Bool) (links : Nat) (here : Location) (name : Name)
    (rest : List Name) : Except Fault Place :=
  match fs.entry? (here ++ [name]) with
  | none => if rest = [] then .ok (.vacant here name) else .error .notFound
  | some .directory => fs.walkLinks Path.steps follow links (here ++ [name]) rest
  | some (.file n) =>
    if rest = [] then .ok (.found (here ++ [name]) (.file n)) else .error .notDirectory
  | some (.link target) =>
    if rest = [] ∧ follow = false then .ok (.found (here ++ [name]) (.link target))
    else fs.follower follow links here target rest

theorem enter_missing (h : fs.entry? (here ++ [name]) = none) :
    fs.enter follow links here name rest =
      if rest = [] then .ok (.vacant here name) else .error .notFound := by
  rw [enter, h]

theorem enter_directory (h : fs.entry? (here ++ [name]) = some .directory) :
    fs.enter follow links here name rest =
      fs.walkLinks Path.steps follow links (here ++ [name]) rest := by
  rw [enter, h]

theorem enter_file {n : Nat} (h : fs.entry? (here ++ [name]) = some (.file n)) :
    fs.enter follow links here name rest =
      if rest = [] then .ok (.found (here ++ [name]) (.file n)) else .error .notDirectory := by
  rw [enter, h]

theorem enter_link (h : fs.entry? (here ++ [name]) = some (.link target)) :
    fs.enter follow links here name rest =
      if rest = [] ∧ follow = false then .ok (.found (here ++ [name]) (.link target))
      else fs.follower follow links here target rest := by
  rw [enter, h]

theorem walkLinks_nil :
    fs.walkLinks Path.steps follow links here [] = .ok (.found here .directory) := by
  rw [walkLinks_eq, walk]

/-- The first name is skipped, leads up, is refused or is looked up. -/
theorem walkLinks_cons : fs.walkLinks Path.steps follow links here (name :: rest) =
    if name = Path.dot ∨ name = trailingSlash then fs.walkLinks Path.steps follow links here rest
    else if name = Path.dotDot then fs.walkLinks Path.steps follow links here.dropLast rest
    else if rest = [trailingSlash] then .error .isDirectory
    else if maxNameLength < name.length then .error .nameTooLong
    else fs.enter follow links here name rest := by
  simp only [walkLinks_eq, enter]
  rfl

theorem walkLinks_dot : fs.walkLinks Path.steps follow links here (Path.dot :: rest) =
    fs.walkLinks Path.steps follow links here rest := by
  rw [walkLinks_cons, if_pos (.inl rfl)]

theorem walkLinks_dotDot : fs.walkLinks Path.steps follow links here (Path.dotDot :: rest) =
    fs.walkLinks Path.steps follow links here.dropLast rest := by
  rw [walkLinks_cons, if_neg (by decide), if_pos rfl]

/-- Whatever the file system, a name is skipped, leads up, is refused or is looked up. -/
theorem walkLinks_cases (name : Name) (rest : List Name) :
    (∀ fs follow links here, walkLinks fs Path.steps follow links here (name :: rest) =
      walkLinks fs Path.steps follow links here rest) ∨
    (∀ fs follow links here, walkLinks fs Path.steps follow links here (name :: rest) =
      walkLinks fs Path.steps follow links here.dropLast rest) ∨
    (∃ e, ∀ fs follow links here,
      walkLinks fs Path.steps follow links here (name :: rest) = .error e) ∨
    ∀ fs follow links here, walkLinks fs Path.steps follow links here (name :: rest) =
      enter fs follow links here name rest := by
  by_cases dot : name = Path.dot ∨ name = trailingSlash
  · exact .inl fun fs follow links here => walkLinks_cons.trans (if_pos dot)
  by_cases up : name = Path.dotDot
  · exact .inr (.inl fun fs follow links here => by rw [walkLinks_cons, if_neg dot, if_pos up])
  by_cases slash : rest = [trailingSlash]
  · exact .inr (.inr (.inl ⟨_, fun fs follow links here => by
      rw [walkLinks_cons, if_neg dot, if_neg up, if_pos slash]⟩))
  by_cases long : maxNameLength < name.length
  · exact .inr (.inr (.inl ⟨_, fun fs follow links here => by
      rw [walkLinks_cons, if_neg dot, if_neg up, if_neg slash, if_pos long]⟩))
  · exact .inr (.inr (.inr fun fs follow links here => by
      rw [walkLinks_cons, if_neg dot, if_neg up, if_neg slash, if_neg long]))

/-- A name that a directory may have is looked up in it. -/
theorem walkLinks_proper (proper : Proper name) (plain : trailingSlash ∉ rest) :
    fs.walkLinks Path.steps follow links here (name :: rest) =
      fs.enter follow links here name rest := by
  have noSlash : rest ≠ [trailingSlash] := by
    rintro rfl
    exact plain List.mem_cons_self
  simp only [walkLinks_cons, proper.notDot, proper.notSlash, proper.notDotDot, noSlash,
    Nat.not_lt.mpr proper.short, or_self, if_false]

theorem walkLinks_long (long : maxNameLength < name.length) (plain : trailingSlash ∉ rest) :
    fs.walkLinks Path.steps follow links here (name :: rest) = .error .nameTooLong := by
  have noSlash : rest ≠ [trailingSlash] := by
    rintro rfl
    exact plain List.mem_cons_self
  have ne (short : Name) (few : short.length ≤ maxNameLength) : name ≠ short := by
    rintro rfl
    exact Nat.not_lt.mpr few long
  rw [walkLinks_cons, if_neg (by simp [ne Path.dot (by decide), ne trailingSlash (by decide)]),
    if_neg (ne Path.dotDot (by decide)), if_neg noSlash, if_pos long]

theorem name_cases (notSlash : name ≠ trailingSlash) :
    name = Path.dot ∨ name = Path.dotDot ∨ maxNameLength < name.length ∨ Proper name := by
  by_cases isDot : name = Path.dot
  · exact .inl isDot
  by_cases isUp : name = Path.dotDot
  · exact .inr (.inl isUp)
  rcases Nat.lt_or_ge maxNameLength name.length with long | short
  · exact .inr (.inr (.inl long))
  · exact .inr (.inr (.inr ⟨isDot, isUp, notSlash, short⟩))

/-- The names of a path hold no trailing slash. -/
theorem trailingSlash_not_mem_names (p : Path) : trailingSlash ∉ p.names := by
  unfold Path.names
  intro there
  simpa [trailingSlash] using (List.mem_filter.mp there).2

theorem trailingSlash_not_mem_steps (p : Path) : trailingSlash ∉ p.steps := by
  have names := trailingSlash_not_mem_names p
  unfold Path.steps
  split_ifs
  · simpa [names] using (by decide : trailingSlash ≠ Path.dot)
  · exact names

theorem plain_onward (plain : trailingSlash ∉ rest) (target : Path) :
    trailingSlash ∉ target.steps ++ rest := fun there =>
  (List.mem_append.mp there).elim (trailingSlash_not_mem_steps target) plain

/-! ## Induction along a look-up -/

/-- A look-up goes on with fewer names, or with those of a link's target and one link less to
follow. -/
theorem lookUp_induction {motive : Nat → Location → List Name → Prop}
    (nil : ∀ links here, motive links here [])
    (cons : ∀ links here name rest, (∀ here, motive links here rest) →
      (∀ fewer here (target : Path), links = fewer + 1 → motive fewer here (target.steps ++ rest)) →
      motive links here (name :: rest))
    (links : Nat) (here : Location) (names : List Name) : motive links here names := by
  induction links using Nat.strongRecOn generalizing here names with
  | ind links followed =>
    induction names generalizing here with
    | nil => exact nil links here
    | cons name rest ih =>
      refine cons links here name rest ih fun fewer here target less => ?_
      exact followed fewer (by omega) here (target.steps ++ rest)

/-- The same for names without a trailing slash, each by its kind. -/
theorem plain_induction
    {motive : Nat → Location → (names : List Name) → trailingSlash ∉ names → Prop}
    (nil : ∀ links here plain, motive links here [] plain)
    (dot : ∀ links here rest plain plainRest, motive links here rest plainRest →
      motive links here (Path.dot :: rest) plain)
    (up : ∀ links here rest plain plainRest, motive links here.dropLast rest plainRest →
      motive links here (Path.dotDot :: rest) plain)
    (long : ∀ links here name rest plain, trailingSlash ∉ rest → maxNameLength < name.length →
      motive links here (name :: rest) plain)
    (proper : ∀ links here name rest plain plainRest, Proper name →
      motive links (here ++ [name]) rest plainRest →
      (∀ fewer (target : Path) plainTarget, links = fewer + 1 →
        motive fewer (linkStart here target) (target.steps ++ rest) plainTarget) →
      motive links here (name :: rest) plain)
    (links : Nat) (here : Location) (names : List Name) (plain : trailingSlash ∉ names) :
    motive links here names plain := by
  induction links, here, names using lookUp_induction with
  | nil links here => exact nil links here plain
  | cons links here name rest ih followed =>
    have plainRest : trailingSlash ∉ rest := fun there => plain (List.mem_cons_of_mem _ there)
    rcases name_cases fun same => plain (same ▸ List.mem_cons_self) with
      rfl | rfl | isLong | isProper
    · exact dot links here rest plain plainRest (ih here plainRest)
    · exact up links here rest plain plainRest (ih here.dropLast plainRest)
    · exact long links here name rest plain plainRest isLong
    · refine proper links here name rest plain plainRest isProper (ih _ plainRest) ?_
      exact fun fewer target plainTarget less => followed fewer _ target less plainTarget

/-! ## More entries and more links -/

/-- The first file system has all entries of the second one. -/
def Extends (fs' fs : FileSystem) : Prop :=
  ∀ at_ entry, fs.entry? at_ = some entry → fs'.entry? at_ = some entry

/-- The first file system has those entries of the second one that a look-up passes by which an
entry is found: other files are not among them. -/
def Supports (fs' fs : FileSystem) (entry : Entry) : Prop :=
  ∀ at_ passed, fs.entry? at_ = some passed → (∀ n, passed = .file n → entry = .file n) →
    fs'.entry? at_ = some passed

theorem Extends.supports {entry : Entry} (h : fs'.Extends fs) : fs'.Supports fs entry :=
  fun at_ passed there _ => h at_ passed there

theorem walkLinks_supports {m n : Nat} {entry : Entry} (more : fs'.Supports fs entry) (le : m ≤ n)
    (h : fs.walkLinks Path.steps follow m here names = .ok (.found dir entry)) :
    fs'.walkLinks Path.steps follow n here names = .ok (.found dir entry) := by
  induction m, here, names using lookUp_induction generalizing n with
  | nil m here =>
    rw [walkLinks_nil] at h ⊢
    exact h
  | cons m here name rest ih followed =>
    rcases walkLinks_cases name rest with same | same | ⟨e, same⟩ | same
    · rw [same] at h ⊢
      exact ih here le h
    · rw [same] at h ⊢
      exact ih here.dropLast le h
    · cases (same ..).symm.trans h
    rw [same] at h ⊢
    cases found : fs.entry? (here ++ [name]) with
    | none =>
      rw [enter_missing found] at h
      split_ifs at h
      cases h
    | some passed =>
      cases passed with
      | directory =>
        rw [enter_directory found] at h
        rw [enter_directory (more _ _ found nofun)]
        exact ih (here ++ [name]) le h
      | file file =>
        rw [enter_file found] at h
        split_ifs at h with last
        simp only [Except.ok.injEq, Place.found.injEq] at h
        rw [enter_file (more _ _ found fun _ same => by rw [← h.2, same]), if_pos last, h.1, h.2]
      | link target =>
        rw [enter_link found] at h
        rw [enter_link (more _ _ found nofun)]
        by_cases last : rest = [] ∧ follow = false
        · rw [if_pos last] at h ⊢
          exact h
        rw [if_neg last] at h ⊢
        cases m with
        | zero => cases h
        | succ m =>
          cases n with
          | zero => omega
          | succ n => exact followed m _ target rfl (Nat.le_of_succ_le_succ le) h

/-- What is found is found if there are more entries and more links may be followed. -/
theorem walkLinks_extends {m n : Nat} {entry : Entry} (more : fs'.Extends fs) (le : m ≤ n)
    (h : fs.walkLinks Path.steps follow m here names = .ok (.found dir entry)) :
    fs'.walkLinks Path.steps follow n here names = .ok (.found dir entry) :=
  walkLinks_supports more.supports le h

theorem Extends.refl (fs : FileSystem) : fs.Extends fs := fun _ _ h => h

theorem Extends.trans {fs'' : FileSystem} (h : fs''.Extends fs') (h' : fs'.Extends fs) :
    fs''.Extends fs := fun at_ entry found => h at_ entry (h' at_ entry found)

/-- A place is told as it is. That there is a directory where a look-up starts is not checked. -/
def Fits (fs : FileSystem) : Place → Prop
  | .found _ .directory => True
  | .found at_ entry => fs.entry? at_ = some entry
  | .vacant dir name => fs.entry? (dir ++ [name]) = none

theorem fits_of_walk {jump : Location → Path → List Name → Except Fault Place}
    (next : ∀ here target rest, jump here target rest = .ok place → fs.Fits place)
    (h : fs.walk follow jump here names = .ok place) : fs.Fits place := by
  induction names generalizing here with
  | nil =>
    cases h
    trivial
  | cons first rest ih =>
    unfold walk at h
    by_cases skipped : first = Path.dot ∨ first = trailingSlash
    · exact ih ((if_pos skipped).symm.trans h)
    by_cases up : first = Path.dotDot
    · exact ih (((if_neg skipped).trans (if_pos up)).symm.trans h)
    rw [if_neg skipped, if_neg up] at h
    split at h
    · cases h
    split at h
    · cases h
    cases found : fs.entry? (here ++ [first]) with
    | none =>
      rw [found] at h
      simp only at h
      split_ifs at h
      cases h
      exact found
    | some entry =>
      rw [found] at h
      cases entry with
      | directory => exact ih h
      | file n =>
        simp only at h
        split_ifs at h
        cases h
        exact found
      | link target =>
        simp only at h
        split_ifs at h
        · cases h
          exact found
        · exact next _ _ _ h

/-- Whatever steps the targets of links are looked up by. -/
theorem fits_of_walkLinks {steps : Path → List Name}
    (h : fs.walkLinks steps follow links here names = .ok place) : fs.Fits place := by
  induction links generalizing here names with
  | zero => exact fits_of_walk (fun _ _ _ absurd => by cases absurd) h
  | succ links ih => exact fits_of_walk (fun _ _ _ found => ih found) h

/-! ## Paths that are looked up -/

theorem lookup_eq_ok {p : Path} : fs.lookup follow p = .ok place ↔ checkPath p = .ok () ∧
    fs.walkLinks Path.steps follow maxLinks (fs.start p) p.steps = .ok place := by
  unfold lookup
  cases checkPath p <;> simp [Bind.bind, Except.bind]

theorem fits_of_lookup {p : Path} (h : fs.lookup follow p = .ok place) : fs.Fits place :=
  fits_of_walkLinks (lookup_eq_ok.mp h).2

/-! ## Ways to a directory -/

/-- Names lead from one directory to another one, by way of a number of links. -/
inductive Leads (fs : FileSystem) : Nat → Location → List Name → Location → Prop
  | here (dir : Location) : Leads fs 0 dir [] dir
  | dot {links : Nat} {here dir : Location} {rest : List Name}
      (next : Leads fs links here rest dir) :
    Leads fs links here (Path.dot :: rest) dir
  | up {links : Nat} {here dir : Location} {rest : List Name}
    (next : Leads fs links here.dropLast rest dir) : Leads fs links here (Path.dotDot :: rest) dir
  | into {links : Nat} {here dir : Location} {name : Name} {rest : List Name} (proper : Proper name)
    (entry : fs.entry? (here ++ [name]) = some .directory)
    (next : Leads fs links (here ++ [name]) rest dir) : Leads fs links here (name :: rest) dir
  | through {links : Nat} {here dir : Location} {name : Name} {rest : List Name} {target : Path}
    (proper : Proper name) (entry : fs.entry? (here ++ [name]) = some (.link target))
    (next : Leads fs links (linkStart here target) (target.steps ++ rest) dir) :
    Leads fs (links + 1) here (name :: rest) dir

/-- A look-up that comes to a directory has taken a way to it. -/
theorem leads_of_walkLinks (plain : trailingSlash ∉ names)
    (h : fs.walkLinks Path.steps true links here names = .ok (.found dir .directory)) :
    ∃ used ≤ links, Leads fs used here names dir := by
  induction links, here, names, plain using plain_induction with
  | nil links here plain =>
    cases walkLinks_nil.symm.trans h
    exact ⟨0, Nat.zero_le _, .here dir⟩
  | dot links here rest plain plainRest ih =>
    obtain ⟨used, le, way⟩ := ih (walkLinks_dot.symm.trans h)
    exact ⟨used, le, .dot way⟩
  | up links here rest plain plainRest ih =>
    obtain ⟨used, le, way⟩ := ih (walkLinks_dotDot.symm.trans h)
    exact ⟨used, le, .up way⟩
  | long links here name rest plain plainRest long =>
    cases (walkLinks_long long plainRest).symm.trans h
  | proper links here name rest plain plainRest proper ih followed =>
    rw [walkLinks_proper proper plainRest] at h
    cases found : fs.entry? (here ++ [name]) with
    | none =>
      rw [enter_missing found] at h
      split_ifs at h
      cases h
    | some entry =>
      cases entry with
      | directory =>
        obtain ⟨used, le, way⟩ := ih ((enter_directory found).symm.trans h)
        exact ⟨used, le, .into proper found way⟩
      | file n =>
        rw [enter_file found] at h
        split_ifs at h
        cases h
      | link target =>
        rw [enter_link found, if_neg (by simp)] at h
        cases links with
        | zero => cases h
        | succ links =>
          obtain ⟨used, le, way⟩ := followed links target (plain_onward plainRest target) rfl h
          exact ⟨used + 1, Nat.succ_le_succ le, .through proper found way⟩

/-- Behind a way to a directory a look-up goes on from there. -/
theorem Leads.walkLinks_append {used : Nat} (h : Leads fs used here names dir)
    (le : used ≤ links) (plain : trailingSlash ∉ names ++ more)
    (onward : follow = true ∨ more ≠ []) :
    fs.walkLinks Path.steps follow links here (names ++ more) =
      fs.walkLinks Path.steps follow (links - used) dir more := by
  induction h generalizing links with
  | here dir => rfl
  | dot _ ih =>
    rw [List.cons_append] at plain ⊢
    rw [walkLinks_dot]
    exact ih le (fun there => plain (List.mem_cons_of_mem _ there))
  | up _ ih =>
    rw [List.cons_append] at plain ⊢
    rw [walkLinks_dotDot]
    exact ih le (fun there => plain (List.mem_cons_of_mem _ there))
  | @into _ here _ name rest proper entry _ ih =>
    rw [List.cons_append] at plain ⊢
    have plainRest : trailingSlash ∉ rest ++ more := fun there =>
      plain (List.mem_cons_of_mem _ there)
    rw [walkLinks_proper proper plainRest, enter_directory entry]
    exact ih le plainRest
  | @through used here dir name rest target proper entry _ ih =>
    rw [List.cons_append] at plain ⊢
    have plainRest : trailingSlash ∉ rest ++ more := fun there =>
      plain (List.mem_cons_of_mem _ there)
    have goesOn : ¬(rest ++ more = [] ∧ follow = false) := by
      rintro ⟨none, stays⟩
      rw [List.append_eq_nil_iff] at none
      rcases onward with follows | some
      · rw [follows] at stays
        cases stays
      · exact some none.2
    cases links with
    | zero => omega
    | succ links =>
      have plainTarget := plain_onward plainRest target
      rw [← List.append_assoc] at plainTarget
      have next := ih (Nat.le_of_succ_le_succ le) plainTarget
      rw [List.append_assoc] at next
      rw [walkLinks_proper proper plainRest, enter_link entry, if_neg goesOn, Nat.add_sub_add_right]
      exact next

/-- A way to a directory is found by a look-up that may follow as many links. -/
theorem Leads.walkLinks {used : Nat} (h : Leads fs used here names dir) (le : used ≤ links)
    (plain : trailingSlash ∉ names) :
    fs.walkLinks Path.steps true links here names = .ok (.found dir .directory) := by
  rw [← List.append_nil names] at plain ⊢
  rw [h.walkLinks_append le plain (.inl rfl), walkLinks_nil]

/-- A way by more links than may be followed is not gone to its end. -/
theorem Leads.walkLinks_few {used : Nat} (h : Leads fs used here names dir)
    (few : links < used) (plain : trailingSlash ∉ names) :
    fs.walkLinks Path.steps true links here names = .error .tooManyLinks := by
  induction h generalizing links with
  | here dir => cases few
  | dot _ ih =>
    rw [walkLinks_dot]
    exact ih few fun there => plain (List.mem_cons_of_mem _ there)
  | up _ ih =>
    rw [walkLinks_dotDot]
    exact ih few fun there => plain (List.mem_cons_of_mem _ there)
  | into proper entry _ ih =>
    have plainRest := fun there => plain (List.mem_cons_of_mem _ there)
    rw [walkLinks_proper proper plainRest, enter_directory entry]
    exact ih few plainRest
  | @through used here dir name rest target proper entry _ ih =>
    have plainRest := fun there => plain (List.mem_cons_of_mem _ there)
    rw [walkLinks_proper proper plainRest, enter_link entry, if_neg (by simp)]
    cases links with
    | zero => rfl
    | succ links => exact ih (Nat.lt_of_succ_lt_succ few) (plain_onward plainRest target)

/-- The beginning of a way to a directory is a way to a directory. -/
theorem Leads.front {used : Nat} (h : Leads fs used here (names ++ more) dir) :
    ∃ used' mid, Leads fs used' here names mid := by
  generalize all : names ++ more = steps at h
  induction h generalizing names with
  | here dir =>
    obtain ⟨rfl, -⟩ := List.append_eq_nil_iff.mp all
    exact ⟨0, dir, .here dir⟩
  | @dot _ here _ _ _ ih =>
    cases names with
    | nil => exact ⟨0, here, .here here⟩
    | cons name names =>
      obtain ⟨rfl, rfl⟩ := List.cons.inj all
      obtain ⟨used, mid, way⟩ := ih rfl
      exact ⟨used, mid, .dot way⟩
  | @up _ here _ _ _ ih =>
    cases names with
    | nil => exact ⟨0, here, .here here⟩
    | cons name names =>
      obtain ⟨rfl, rfl⟩ := List.cons.inj all
      obtain ⟨used, mid, way⟩ := ih rfl
      exact ⟨used, mid, .up way⟩
  | @into _ here _ _ _ proper entry _ ih =>
    cases names with
    | nil => exact ⟨0, here, .here here⟩
    | cons name names =>
      obtain ⟨rfl, rfl⟩ := List.cons.inj all
      obtain ⟨used, mid, way⟩ := ih rfl
      exact ⟨used, mid, .into proper entry way⟩
  | @through _ here _ _ _ target proper entry _ ih =>
    cases names with
    | nil => exact ⟨0, here, .here here⟩
    | cons name names =>
      obtain ⟨rfl, rfl⟩ := List.cons.inj all
      obtain ⟨used, mid, way⟩ := ih (List.append_assoc _ _ _)
      exact ⟨used + 1, mid, .through proper entry way⟩

/-- A way to a directory passes directories and links. -/
theorem Leads.mono {used : Nat} (h : Leads fs used here names dir)
    (directories : ∀ at_, fs.entry? at_ = some .directory → fs'.entry? at_ = some .directory)
    (links : ∀ at_ target, fs.entry? at_ = some (.link target) →
      fs'.entry? at_ = some (.link target)) : Leads fs' used here names dir := by
  induction h with
  | here dir => exact .here dir
  | dot _ ih => exact .dot ih
  | up _ ih => exact .up ih
  | into proper entry _ ih => exact .into proper (directories _ entry) ih
  | through proper entry _ ih => exact .through proper (links _ _ entry) ih

/-- A way to a directory is still there when a file takes the place of something else, unless a link
was there that was on the way. Then whoever goes that way comes to the file and is refused. -/
theorem Leads.overwritten {used n : Nat} {dest : Location} (h : Leads fs used here names dir)
    (directories : ∀ at_, fs.entry? at_ = some .directory → fs'.entry? at_ = some .directory)
    (links : ∀ at_ target, fs.entry? at_ = some (.link target) →
      fs'.entry? at_ = some (.link target) ∨ at_ = dest)
    (file : fs'.entry? dest = some (.file n)) :
    Leads fs' used here names dir ∨
      ∃ target rest used', fs.entry? dest = some (.link target) ∧
        Leads fs used' (linkStart dest.dropLast target) (target.steps ++ rest) dir ∧
        ∀ follow limit more, used ≤ limit → more ≠ [] → trailingSlash ∉ names ++ more →
          fs'.walkLinks Path.steps follow limit here (names ++ more) = .error .notDirectory := by
  induction h with
  | here dir => exact .inl (.here dir)
  | dot _ ih =>
    refine ih.imp .dot fun ⟨target, rest, used', link, way, refused⟩ => ?_
    refine ⟨target, rest, used', link, way, fun follow limit more le some plain => ?_⟩
    rw [List.cons_append] at plain ⊢
    rw [walkLinks_dot]
    exact refused follow limit more le some fun there => plain (List.mem_cons_of_mem _ there)
  | up _ ih =>
    refine ih.imp .up fun ⟨target, rest, used', link, way, refused⟩ => ?_
    refine ⟨target, rest, used', link, way, fun follow limit more le some plain => ?_⟩
    rw [List.cons_append] at plain ⊢
    rw [walkLinks_dotDot]
    exact refused follow limit more le some fun there => plain (List.mem_cons_of_mem _ there)
  | into proper entry _ ih =>
    refine ih.imp (.into proper (directories _ entry))
      fun ⟨target, rest, used', link, way, refused⟩ => ?_
    refine ⟨target, rest, used', link, way, fun follow limit more le some plain => ?_⟩
    rw [List.cons_append] at plain ⊢
    have plainRest := fun there => plain (List.mem_cons_of_mem _ there)
    rw [walkLinks_proper proper plainRest, enter_directory (directories _ entry)]
    exact refused follow limit more le some plainRest
  | @through used here dir name rest target proper entry way ih =>
    rcases links _ _ entry with kept | rfl
    · refine ih.imp (.through proper kept) fun ⟨target', rest', used', link, way, refused⟩ => ?_
      refine ⟨target', rest', used', link, way, fun follow limit more le some plain => ?_⟩
      rw [List.cons_append] at plain ⊢
      have plainRest := fun there => plain (List.mem_cons_of_mem _ there)
      cases limit with
      | zero => omega
      | succ limit =>
        have plainTarget := plain_onward plainRest target
        rw [← List.append_assoc] at plainTarget
        have next := refused follow limit more (Nat.le_of_succ_le_succ le) some plainTarget
        rw [List.append_assoc] at next
        rw [walkLinks_proper proper plainRest, enter_link kept, if_neg (by simp [some])]
        exact next
    · refine .inr ⟨target, rest, used, entry, ?_, fun follow limit more le some plain => ?_⟩
      · rw [List.dropLast_concat]
        exact way
      · rw [List.cons_append] at plain ⊢
        have plainRest := fun there => plain (List.mem_cons_of_mem _ there)
        rw [walkLinks_proper proper plainRest, enter_file file, if_neg (by simp [some])]

end CobolDialects.FileSystem
