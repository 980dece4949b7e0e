import CobolDialects.Locations
import CobolDialects.Proofs.FileSystem.Paths
import CobolDialects.Proofs.Text.Encoding

/-!
# Default locations apart

Each location is put together from a base directory, the application directory and a name of its
own. A variable or the home directory plays a part in the base directory only, and of these two the
variable alone if it names a directory. So the three locations differ by their last names, whatever
the environment.
-/

namespace CobolDialects

namespace Path

variable {p q dir name : Path}

/-- A name seen from a directory: one separator stands between them, which the directory may end in
itself. -/
def below (dir name : Path) : Path := dir ++ (if dir.endsInSlash then [] else [slash]) ++ name

theorem join_eq_below (some : p ≠ []) (relative : q.isAbsolute = false) : p.join q = p.below q := by
  unfold join below endsInSlash
  by_cases ends : p.getLast? = Option.some slash <;> simp [relative, some, ends]

theorem join_ne_nil (some : q ≠ []) : p.join q ≠ [] := by
  unfold join
  split_ifs <;> simp [some]

theorem below_ne_nil (some : name ≠ []) : dir.below name ≠ [] := by
  simp [below, some]

theorem below_of_noSlash (h : dir.endsInSlash = false) : dir.below name = dir ++ slash :: name := by
  simp [below, h]

theorem endsInSlash_below (some : name ≠ []) : (dir.below name).endsInSlash = name.endsInSlash := by
  simp only [endsInSlash, below, List.getLast?_append, List.getLast?_eq_some_getLast some,
    Option.some_or]

end Path

namespace Locations

/-- The value of a variable that names a directory: text, and not empty. -/
def NamesDirectory (value : Bytes) : Prop := value ≠ [] ∧ (textOf? value).isSome

instance (value : Bytes) : Decidable (NamesDirectory value) :=
  inferInstanceAs (Decidable (_ ∧ _))

/-- The directory that a variable names, else a place in the home directory, else the working
directory. -/
def base (given : Option Bytes) (home : Option Path) (place : String) : Path :=
  match given.filter NamesDirectory, home with
  | some dir, _ => dir
  | none, some home => home.join (bytesOf place)
  | none, none => Path.dot

/-- A file in the application directory below a base directory. -/
def inApplication (dir : Path) (file : String) : Path :=
  dir.below (bytesOf applicationName) ++ Path.slash :: bytesOf file

/-- What has a default location. -/
inductive Item where
  | settings | database | log
deriving DecidableEq, Repr

namespace Item

def path : Item → Environment → Path
  | .settings => settingsPath
  | .database => databasePath
  | .log => logPath

/-- The value of the variable that is asked for the base directory. -/
def given : Item → Environment → Option Bytes
  | .log => Environment.dataHome
  | _ => Environment.configHome

/-- Where the base directory lies in the home directory. -/
def place : Item → String
  | .log => ".local/share"
  | _ => ".config"

def file : Item → String
  | .settings => settingsFileName
  | .database => databaseFileName
  | .log => logFileName

def base (item : Item) (env : Environment) : Path :=
  Locations.base (item.given env) env.home item.place

end Item

variable {given : Option Bytes} {value : Bytes} {home : Option Path} {place : String}
  {item other : Item}

theorem filter_namesDirectory (given : Option Bytes) :
    given.filter NamesDirectory = (usable given).filter (· ≠ []) := by
  cases given with
  | none => rfl
  | some value =>
    by_cases text : (textOf? value).isSome <;>
      simp [usable, Option.filter, NamesDirectory, text]

theorem baseDirectory_eq (given : Option Bytes) (home : Option Path) (place : String) :
    baseDirectory (usable given) home (bytesOf place) =
      (base given home place).join (bytesOf applicationName) := by
  unfold baseDirectory base
  rw [filter_namesDirectory]
  cases (usable given).filter (· ≠ []) <;> cases home <;> rfl

theorem base_ne_nil (some : bytesOf place ≠ []) : base given home place ≠ [] := by
  unfold base
  split
  · rename_i dir _ names
    have named := (Option.filter_eq_some_iff.mp names).2
    exact (of_decide_eq_true named).1
  · exact Path.join_ne_nil some
  · decide

theorem Item.base_ne_nil (item : Item) (env : Environment) : item.base env ≠ [] :=
  Locations.base_ne_nil (by cases item <;> decide +kernel)

/-- A location is its base directory, the application directory and its file name, with one
separator between each two. -/
theorem Item.path_eq (item : Item) (env : Environment) :
    item.path env = inApplication (item.base env) item.file := by
  have file : Path.isAbsolute (bytesOf item.file) = false := by cases item <;> decide +kernel
  have application : bytesOf applicationName ≠ [] := by decide +kernel
  have relative : Path.isAbsolute (bytesOf applicationName) = false := by decide +kernel
  have plain : Path.endsInSlash (bytesOf applicationName) = false := by decide +kernel
  have joined : item.path env =
      ((item.base env).join (bytesOf applicationName)).join (bytesOf item.file) := by
    rw [Item.base, ← baseDirectory_eq]
    cases item <;> rfl
  rw [joined, Path.join_eq_below (item.base_ne_nil env) relative,
    Path.join_eq_below (Path.below_ne_nil application) file,
    Path.below_of_noSlash (by rwa [Path.endsInSlash_below application]), inApplication]

theorem Item.getLast?_components (item : Item) (env : Environment) :
    (item.path env).components.getLast? = some (bytesOf item.file) := by
  have name : Path.IsComponent (bytesOf item.file) := by
    cases item <;> exact ⟨by decide +kernel, by decide +kernel⟩
  have notDot : bytesOf item.file ≠ Path.dot := by cases item <;> decide +kernel
  rw [item.path_eq]
  exact Path.getLast?_components _ name notDot

theorem Item.file_injective (same : item.file = other.file) : item = other := by
  revert same
  cases item <;> cases other <;> decide +kernel

theorem base_of_names (names : NamesDirectory value) : base (some value) home place = value := by
  simp only [base, Option.filter_some_pos, names, decide_true]

theorem base_of_unusable (unusable : ¬NamesDirectory value) :
    base (some value) home place = base none home place := by
  have none : (some value).filter NamesDirectory = none := by simp [Option.filter, unusable]
  simp only [base, none, Option.filter_none]

/-- Each location is decided by one variable and the home directory. A variable that is empty or no
text counts as unset, and where it counts the home directory does not. Whatever they are, a location
is its base directory, the application directory and its file name, and no two of them, of one
environment or of two, have the same last component. -/
theorem locations_apart :
    (∀ (item : Item) (env env' : Environment), item.given env = item.given env' →
      env.home = env'.home → item.path env = item.path env') ∧
    (∀ (item : Item) (env env' : Environment) value, item.given env = some value →
      ¬NamesDirectory value → item.given env' = none → env.home = env'.home →
      item.path env = item.path env') ∧
    (∀ (item : Item) (env env' : Environment) value, item.given env = some value →
      item.given env' = some value → NamesDirectory value → item.path env = item.path env') ∧
    (∀ (item : Item) (env : Environment),
      item.path env = inApplication (item.base env) item.file) ∧
    ∀ (item other : Item) (env env' : Environment), item ≠ other →
      (item.path env).components ≠ (other.path env').components := by
  have of_base (item : Item) {env env' : Environment} (same : item.base env = item.base env') :
      item.path env = item.path env' := by
    rw [item.path_eq, item.path_eq, same]
  refine ⟨fun item env env' same home => ?_, fun item env env' value given unusable none home => ?_,
    fun item env env' value given given' names => ?_, Item.path_eq,
    fun item other env env' different same => ?_⟩
  · apply of_base
    rw [Item.base, Item.base, same, home]
  · apply of_base
    rw [Item.base, Item.base, given, none, home, base_of_unusable unusable]
  · apply of_base
    rw [Item.base, Item.base, given, given', base_of_names names, base_of_names names]
  · have last := congrArg List.getLast? same
    rw [item.getLast?_components, other.getLast?_components] at last
    exact different (Item.file_injective (bytesOf_injective (Option.some.inj last)))

/-- Two variables with one relative directory that ends in slashes, of which the home directory
takes nothing away; and one that is no text beside an empty one, which leave everything to it. -/
theorem locations_below_one_directory :
    let dir := some (bytesOf "d//")
    let home := some (bytesOf "/h")
    let one : Environment := ⟨dir, dir, home, none⟩
    let homeless : Environment := ⟨dir, dir, none, some []⟩
    let unusable : Environment := ⟨some [0xFF], some [], home, none⟩
    let unset : Environment := ⟨none, none, home, none⟩
    Item.settings.path one = bytesOf "d//dialect-registry/settings.json" ∧
      (Item.settings.path one).components ≠ (Item.log.path one).components ∧
      Item.database.path one = Item.database.path homeless ∧
      Item.settings.path unusable = Item.settings.path unset ∧
      Item.log.path unusable = Item.log.path unset ∧
      Item.log.path unusable = Item.log.path ⟨dir, some [], home, none⟩ := by
  intro dir home one homeless unusable unset
  obtain ⟨decided, unnamed, named, made, apart⟩ := locations_apart
  refine ⟨?_, apart _ _ one one nofun, named .database one homeless _ rfl rfl (by decide +kernel),
    unnamed .settings unusable unset _ rfl (by decide +kernel) rfl rfl,
    unnamed .log unusable unset _ rfl (by decide +kernel) rfl rfl, decided .log _ _ rfl rfl⟩
  rw [made .settings one]
  decide +kernel

end Locations

end CobolDialects
