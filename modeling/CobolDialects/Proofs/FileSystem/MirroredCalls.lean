import CobolDialects.Proofs.FileSystem.Alike
import CobolDialects.Proofs.FileSystem.Mirrors

/-!
# Calls to file systems that mirror one another

A call by a path that keeps away from the region succeeds in both file systems, or fails in both of
them for one reason. An engine finds the location of its database at the same place if it keeps away
from the region with each location that it looks up on the way.
-/

namespace CobolDialects.FileSystem

variable {region : Set Location} {base fs fs' made : FileSystem} {r : Renumbering}
  {here at_ : Location} {names : List Name} {p dir : Path} {e : Fault}

/-! ## Directories -/

theorem Mirrors.site (h : Mirrors region base r fs fs') (away : fs.Away region p) :
    fs'.site p = (fs.site p).map (Place.renumbered r) := by
  unfold FileSystem.site
  rw [h.start, h.walkLinks (trailingSlash_not_mem_names p) away.onNames]
  cases checkPath p <;> rfl

theorem Mirrors.makeDirectory_error (h : Mirrors region base r fs fs') (away : fs.Away region p)
    (refused : fs.makeDirectory p = .error e) : fs'.makeDirectory p = .error e := by
  unfold FileSystem.makeDirectory at refused ⊢
  rw [h.site away]
  cases site : fs.site p with
  | error fault => simpa [site, Except.map] using refused
  | ok place =>
    cases place with
    | found at_ entry => simpa [site, Except.map, Place.renumbered] using refused
    | vacant dir name => simp [site] at refused

theorem Mirrors.makeDirectory_ok (h : Mirrors region base r fs fs') (away : fs.Away region p)
    (done : fs.makeDirectory p = .ok made) :
    ∃ made', fs'.makeDirectory p = .ok made' ∧ Mirrors region base r made made' := by
  unfold FileSystem.makeDirectory at done ⊢
  rw [h.site away]
  cases site : fs.site p with
  | error fault => simp [site] at done
  | ok place =>
    cases place with
    | found at_ entry => simp [site] at done
    | vacant dir name =>
      rw [site] at done
      obtain rfl := Except.ok.inj done
      exact ⟨_, rfl, h.setEntry _ .directory nofun nofun⟩

theorem Mirrors.makeChain {paths : List Path} (h : Mirrors region base r fs fs')
    (away : ∀ p ∈ paths, base.Away region p) :
    (fs'.makeChain paths).1 = (fs.makeChain paths).1 ∧
      Mirrors region base r (fs.makeChain paths).2 (fs'.makeChain paths).2 :=
  makeChain_related (fun h there => h.makeDirectory_error (h.away (away _ there)))
    (fun h there => h.makeDirectory_ok (h.away (away _ there)))
    (fun h there => h.isDirectory (h.away (away _ there))) h

/-- The directories above a path that keeps away from the region. -/
theorem Mirrors.makeDirectories (h : Mirrors region base r fs fs') (away : base.Away region p) :
    let dir := p.directory?.getD []
    (fs'.makeDirectories dir).1 = (fs.makeDirectories dir).1 ∧
      Mirrors region base r (fs.makeDirectories dir).2 (fs'.makeDirectories dir).2 := by
  intro dir
  unfold FileSystem.makeDirectories
  by_cases none : dir = []
  · rw [if_pos none, if_pos none]
    exact ⟨rfl, h⟩
  rw [if_neg none, if_neg none]
  refine h.makeChain fun q there => ?_
  cases directory : p.directory? with
  | none => simp [dir, directory] at none
  | some parent =>
    obtain rfl : dir = parent := by simp [dir, directory]
    exact away_of_isChain (isChain_chain_directory? directory) (away.directory? directory) there

/-! ## Files -/

theorem Mirrors.openAt? (h : Mirrors region base r fs fs') (away : fs.Away region at_.path)
    (make : Bool) (mode : Nat) :
    fs.openAt? at_ make mode = none ∧ fs'.openAt? at_ make mode = none ∨
      ∃ n opened opened', fs.openAt? at_ make mode = some (n, opened) ∧
        fs'.openAt? at_ make mode = some (r.number n, opened') ∧ n ∈ r.shared ∧
        Mirrors region base r opened opened' := by
  unfold FileSystem.openAt?
  rw [h.lookup away]
  cases found : fs.lookup false at_.path with
  | error fault => exact .inl ⟨rfl, rfl⟩
  | ok place =>
    cases place with
    | vacant dir name =>
      cases make with
      | false => exact .inl ⟨rfl, rfl⟩
      | true =>
        obtain ⟨shared, number⟩ := h.fresh
        refine .inr ⟨_, _, _, rfl, ?_, shared, h.addFile at_ _⟩
        rw [number]
        rfl
    | found there entry =>
      cases entry with
      | directory | link => exact .inl ⟨rfl, rfl⟩
      | file n =>
        have shared : n ∈ r.shared :=
          h.shared_of_find away
            (show fs.find false at_.path = .ok (there, .file n) by rw [FileSystem.find, found])
        refine .inr ⟨n, _, _, rfl, rfl, shared, ?_⟩
        rw [h.contentOf shared]
        split_ifs
        · exact h.setMode shared mode
        · exact h

theorem Mirrors.openAt?_unless (h : Mirrors region base r fs fs') (away : fs.Away region at_.path)
    (make : Bool) (mode : Nat) (readOnly : Bool) :
    (if readOnly then none else fs.openAt? at_ make mode) = none ∧
        (if readOnly then none else fs'.openAt? at_ make mode) = none ∨
      ∃ n opened opened',
        (if readOnly then none else fs.openAt? at_ make mode) = some (n, opened) ∧
        (if readOnly then none else fs'.openAt? at_ make mode) = some (r.number n, opened') ∧
        n ∈ r.shared ∧ Mirrors region base r opened opened' := by
  cases readOnly with
  | true => exact .inl ⟨rfl, rfl⟩
  | false => exact h.openAt? away make mode

/-- The next temporary file gets the same name in a directory whose temporary files lie outside the
region. -/
theorem Mirrors.freshName (h : Mirrors region base r fs fs') {dir : Location}
    (outside : ∀ k, dir ++ [temporaryName k] ∉ region) (reserved : Option Name) :
    fs'.freshName dir reserved = fs.freshName dir reserved := by
  refine freshName_congr reserved fun k => ?_
  rw [h.entry _ (outside k), Option.map_eq_none_iff]

theorem Mirrors.target (h : Mirrors region base r fs fs') (away : fs.Away region p) :
    fs'.target p = fs.target p := by
  have front : fs.AwayFrom region (fs.start p) p.names.dropLast := by
    rcases List.eq_nil_or_concat' p.names with none | ⟨front, name, names⟩
    · rw [none]
      nofun
    · have whole := away.onNames
      rw [names] at whole ⊢
      rw [List.dropLast_concat]
      exact whole.of_append
  have plain : trailingSlash ∉ p.names.dropLast :=
    fun inside => trailingSlash_not_mem_names p (List.dropLast_subset _ inside)
  unfold FileSystem.target
  rw [h.start, h.walkLinks plain front]
  cases fs.walkLinks Path.steps true maxLinks (fs.start p) p.names.dropLast with
  | error fault => rfl
  | ok place => obtain ⟨at_, _ | _ | _⟩ | _ := place <;> rfl

theorem Away.target (away : fs.Away region p) (found : fs.target p = .ok at_) : at_ ∉ region := by
  obtain ⟨dir, name, -, names, -, proper, walk, rfl⟩ := target_eq_ok.mp found
  have plain : trailingSlash ∉ p.names.dropLast :=
    fun inside => trailingSlash_not_mem_names p (List.dropLast_subset _ inside)
  obtain ⟨used, -, way⟩ := leads_of_walkLinks plain walk
  have whole := away.onNames
  rw [names] at whole
  exact whole _ (way.visits (.name proper.notDot proper.notDotDot))

/-- A file is moved. -/
theorem Mirrors.rename (h : Mirrors region base r fs fs') (away : fs.Away region p)
    {source : Location} {n : Nat} (outside : source ∉ region)
    (file : fs.entry? source = some (.file n)) :
    (∃ fault, fs.rename source p = .error fault ∧ fs'.rename source p = .error fault) ∨
      ∃ moved moved', fs.rename source p = .ok moved ∧ fs'.rename source p = .ok moved' ∧
        Mirrors region base r moved moved' := by
  rw [rename_eq, rename_eq, h.target away, h.entry _ outside, file]
  cases place : fs.target p with
  | error fault => exact .inl ⟨fault, rfl, rfl⟩
  | ok at_ =>
    have moved := (h.removeEntry (ne_nil_of_file file)).setEntry at_ (.file n)
      (by rintro _ ⟨⟩; exact h.shared source outside n file) nofun
    dsimp only
    rw [h.entry _ (away.target place)]
    cases fs.entry? at_ with
    | none => exact .inr ⟨_, _, rfl, rfl, moved⟩
    | some old =>
      cases old with
      | directory => exact .inl ⟨_, rfl, rfl⟩
      | file | link => exact .inr ⟨_, _, rfl, rfl, moved⟩

/-! ## The location of a database -/

/-- An engine that follows names from a location looks up another one on the way. -/
inductive Follows (fs : FileSystem) : Location → List Name → Location → Prop
  | dot {here at_ : Location} {rest : List Name} (next : Follows fs here rest at_) :
    Follows fs here (Path.dot :: rest) at_
  | up {here at_ : Location} {rest : List Name} (next : Follows fs here.dropLast rest at_) :
    Follows fs here (Path.dotDot :: rest) at_
  | name {here : Location} {name : Name} {rest : List Name} :
    Follows fs here (name :: rest) (here ++ [name])
  | into {here at_ : Location} {name : Name} {rest : List Name}
    (next : Follows fs (here ++ [name]) rest at_) : Follows fs here (name :: rest) at_
  | through {here at_ there : Location} {name : Name} {rest : List Name} {target : Path}
    (link : fs.find false (Location.path (here ++ [name])) = .ok (there, .link target))
    (next : Follows fs (linkStart here target) (target.names ++ rest) at_) :
    Follows fs here (name :: rest) at_

theorem Mirrors.followNames {jump jump' : Location → Path → List Name → Option Location}
    (h : Mirrors region base r fs fs')
    (away : ∀ at_, Follows fs here names at_ → fs.Away region at_.path)
    (jumps : ∀ here target rest,
      (∀ at_, Follows fs (linkStart here target) (target.names ++ rest) at_ →
        fs.Away region at_.path) → jump' here target rest = jump here target rest) :
    fs'.followNames jump' here names = fs.followNames jump here names := by
  induction names generalizing here with
  | nil => rfl
  | cons name rest ih =>
    rw [FileSystem.followNames, FileSystem.followNames]
    split_ifs with dot up long
    · subst dot
      exact ih fun at_ there => away at_ (.dot there)
    · subst up
      exact ih fun at_ there => away at_ (.up there)
    · rfl
    rw [h.find (away _ .name)]
    have onward := ih fun at_ there => away at_ (.into there)
    cases found : fs.find false (Location.path (here ++ [name])) with
    | error fault => cases fault <;> first | exact onward | rfl
    | ok there =>
      obtain ⟨place, entry⟩ := there
      cases entry with
      | link target => exact jumps here target rest fun at_ there => away at_ (.through found there)
      | directory | file => exact onward

theorem Mirrors.followLinks {links : Nat} (h : Mirrors region base r fs fs')
    (away : ∀ at_, Follows fs here names at_ → fs.Away region at_.path) :
    fs'.followLinks links here names = fs.followLinks links here names := by
  induction links generalizing here names with
  | zero => exact h.followNames away fun _ _ _ _ => rfl
  | succ links ih => exact h.followNames away fun here target rest away => ih away

/-- The path of a database stands for the same location in both file systems. -/
theorem Mirrors.locate? (h : Mirrors region base r fs fs')
    (away : ∀ at_, Follows fs (fs.start p) p.names at_ → fs.Away region at_.path) :
    fs'.locate? p = fs.locate? p := by
  unfold FileSystem.locate?
  rw [h.start]
  exact h.followLinks away

end CobolDialects.FileSystem
