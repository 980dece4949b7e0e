import Mathlib
import CobolDialects.Proofs.Settings.Again
import CobolDialects.Proofs.Settings.File
import CobolDialects.Proofs.Settings.Rows
import CobolDialects.Proofs.Settings.Separation

/-!
# Keys do not interfere

In none of the stores does a key depend on the calls under other keys. For a table in memory and for
the rows of a database this is so because a set replaces nothing else. A set of a settings file
writes all settings anew, from what it has just read; so what it does to the other keys is nothing
because the document is read back as it was written, and because whether it succeeds depends only on
what the system refuses.
-/

namespace CobolDialects.Settings

variable {key : String}

/-! ## In memory -/

theorem Memory.separates (key : String) :
    Separates (fun _ : Unit => store) key fun s s' => s.find? key = s'.find? key where
  get _ same := ⟨congrArg Except.ok same, same⟩
  set _ _ _ := ⟨rfl, by simp [store, Members.find?_upsert]⟩
  otherGet _ same _ := same
  otherSet _ same ne _ := by simpa [store, Members.find?_upsert, ne.symm] using same

/-! ## In a database -/

namespace DatabaseFile

open Database

variable {verdict : Except Database.Error Unit} {working : Database → Engine → Prop} {slot : Nat}
  {e e' : Engine} {db : Database}

/-- Both connections see databases with the same value under a key. -/
def SameValue (working : Database → Engine → Prop) (key : String) (e e' : Engine) : Prop :=
  ∃ db db', working db e ∧ working db' e' ∧ cell? (·.value) key db = cell? (·.value) key db'

/-- What a write that is judged leaves in the column of the values. -/
theorem cell?_judged (declared : db.shape? = some .keyed) (row : Row) (key : String) :
    cell? (·.value) key (db.judged (upsertRow row db.rows) verdict) =
      match verdict with
      | .ok () => if row.key = key then some row.value else cell? (·.value) key db
      | .error _ => cell? (·.value) key db := by
  cases verdict with
  | ok => exact cell?_upsertRow declared row (·.value) key
  | error => rfl

/-- Where every statement is carried out, a database keeps what it has under a key, and no call
fails. -/
theorem keepsUnder_of_unfailing (unfailing : Engine.Unfailing slot (.ok ()) working) (time : Int)
    (key : String) :
    KeepsUnder key (store time slot)
      (fun e value? => ∃ db, working db e ∧ valueIn (cell? (·.value) key db) = .ok value?)
      fun _ => False where
  get := by
    rintro e value? ⟨db, works, same⟩
    obtain ⟨answer, still⟩ := get_comes unfailing works key
    exact .inl ⟨answer.trans same, db, still, same⟩
  set := by
    rintro e value? value ⟨db, works, -⟩ storable
    obtain ⟨answer, still⟩ := set_comes unfailing works time key value
    refine .inl ⟨answer, _, still, ?_⟩
    simpa [cell?_judged (unfailing.declared works), storedRow] using valueIn_toText storable

theorem separates (unfailing : Engine.Unfailing slot verdict working) (key : String) :
    Separates (fun time => store time slot) key (SameValue working key) where
  get := by
    rintro e e' time ⟨db, db', works, works', same⟩
    obtain ⟨answer, still⟩ := get_comes unfailing works key
    obtain ⟨answer', still'⟩ := get_comes unfailing works' key
    exact ⟨by simp only [store, answer, answer', same], db, db', still, still', same⟩
  set := by
    rintro e e' value time ⟨db, db', works, works', same⟩ -
    obtain ⟨answer, still⟩ := set_comes unfailing works time key value
    obtain ⟨answer', still'⟩ := set_comes unfailing works' time key value
    refine ⟨by simp only [store, answer, answer'], _, _, still, still', ?_⟩
    rw [cell?_judged (unfailing.declared works), cell?_judged (unfailing.declared works'), same]
  otherGet := by
    rintro e e' other time ⟨db, db', works, works', same⟩ -
    exact ⟨db, db', (get_comes unfailing works other).2, works', same⟩
  otherSet := by
    rintro e e' other value time ⟨db, db', works, works', same⟩ ne -
    obtain ⟨-, still⟩ := set_comes unfailing works time other value
    refine ⟨_, db', still, works', ?_⟩
    rw [cell?_judged (unfailing.declared works), ← same]
    cases verdict with
    | ok => exact if_neg ne
    | error => rfl

end DatabaseFile

/-! ## In a file -/

namespace File

open FileSystem

variable {file : Path} {first fs fs' : FileSystem} {settings table : Members} {value : Json}
  {refusals : Refusals}

/-- The file holds a table, and whether a save succeeds depends on the system as it did at first. -/
structure Kept (file : Path) (first fs : FileSystem) (table : Members) : Prop where
  standing : Standing file fs
  load : ∀ key, load file key fs = .ok table
  free : ∀ m ∈ table, m.2.floatFree
  verdict : ∀ refusals settings,
    (save refusals file settings fs).1 = (save refusals file [] first).1

/-- A file that is missing or holds settings holds them, if the directories above it are of no
account. -/
theorem kept_of_load (sound : fs.Sound) (read : load file key fs = .ok settings)
    (free : ∀ m ∈ settings, m.2.floatFree)
    (same : (makeParents file fs).2.readText file = fs.readText file) :
    Kept file fs fs settings where
  standing := ⟨sound, legible_of_load read, same⟩
  load other := load_key other read
  free := free
  verdict refusals others := save_result refusals file others [] fs

/-- A set succeeds if the system permits it, and then the file holds its value besides what it
held. -/
theorem Kept.set (h : Kept file first fs table) (refusals : Refusals) (key : String)
    (storable : Storable value) :
    (set refusals file key value fs).result =
        (save refusals file [] first).1.mapError .io ∧
      Kept file first (set refusals file key value fs).state
        (match (save refusals file [] first).1 with
          | .ok () => table.upsert key value
          | .error _ => table) := by
  have verdict := h.verdict refusals (table.upsert key value)
  unfold File.set
  rw [h.load key, ← verdict]
  simp only
  cases saving : save refusals file (table.upsert key value) fs with
  | mk result left =>
    cases result with
    | ok =>
      obtain ⟨standing, text, again⟩ := h.standing.written saving
      have loaded := (loaded_of_load (h.load key)).upsert key storable.canonical storable.depth_lt
      have free := floatFree_upsert key h.free storable.floatFree
      exact ⟨rfl, standing, load_of_document free loaded text, free,
        fun refusals settings => (again refusals settings).trans (h.verdict refusals settings)⟩
    | error fault =>
      obtain ⟨standing, text, again⟩ := h.standing.undone (undone_of_save saving)
      refine ⟨rfl, standing, fun other => ?_, h.free,
        fun refusals settings => (again refusals settings).trans (h.verdict refusals settings)⟩
      rw [File.load, text, ← File.load, h.load]

/-- Where the system permits to save, a settings file keeps what it has under a key, and no call
fails. -/
theorem keepsUnder_of_kept (permitted : (save refusals file [] first).1 = .ok ()) (key : String) :
    KeepsUnder key (store refusals file)
      (fun fs value? => ∃ table, Kept file first fs table ∧ table.find? key = value?)
      fun _ => False where
  get := by
    rintro fs value? ⟨table, kept, same⟩
    refine .inl ⟨?_, table, kept, same⟩
    simp only [store, File.get, kept.load, Except.map, same]
  set := by
    rintro fs value? value ⟨table, kept, -⟩ storable
    obtain ⟨answer, still⟩ := kept.set refusals key storable
    rw [permitted] at answer still
    exact .inl ⟨answer, _, still, by simp [Members.find?_upsert]⟩

/-- Both files hold tables with the same value under a key. -/
def SameValue (file : Path) (first : FileSystem) (key : String) (fs fs' : FileSystem) : Prop :=
  ∃ table table', Kept file first fs table ∧ Kept file first fs' table' ∧
    table.find? key = table'.find? key

theorem separates (file : Path) (first : FileSystem) (key : String) :
    Separates (fun refusals => store refusals file) key (SameValue file first key) where
  get := by
    rintro fs fs' refusals ⟨table, table', kept, kept', same⟩
    refine ⟨?_, table, table', kept, kept', same⟩
    simp only [store, File.get, kept.load, kept'.load, Except.map, same]
  set := by
    rintro fs fs' value refusals ⟨table, table', kept, kept', same⟩ storable
    obtain ⟨answer, still⟩ := kept.set refusals key storable
    obtain ⟨answer', still'⟩ := kept'.set refusals key storable
    refine ⟨answer.trans answer'.symm, _, _, still, still', ?_⟩
    cases (save refusals file [] first).1 with
    | ok => simp [Members.find?_upsert]
    | error => exact same
  otherGet := fun _ same _ => same
  otherSet := by
    rintro fs fs' other value refusals ⟨table, table', kept, kept', same⟩ ne storable
    obtain ⟨-, still⟩ := kept.set refusals other storable
    refine ⟨_, table', still, kept', ?_⟩
    cases (save refusals file [] first).1 with
    | ok => simpa [Members.find?_upsert, ne.symm] using same
    | error => exact same

end File

/-! ## In all stores -/

/-- Whatever is called under other keys, in whichever order, those who use a key get the same
answers as without these calls, and the same value is stored under the key in the end. A settings
file has to be missing or to hold settings, and so it has to be if there are the directories above
it; of a database nothing is asked but that statements are carried out, or that every write is
refused for the same reason. -/
theorem keys_undisturbed (key : String) (table : Memory) {file : Path} {fs : FileSystem}
    {settings : Members} (sound : fs.Sound) (read : File.load file key fs = .ok settings)
    (free : ∀ m ∈ settings, m.2.floatFree)
    (kept : (File.makeParents file fs).2.readText file = fs.readText file)
    {slot : Nat} {verdict : Except Database.Error Unit} {working : Database → Engine → Prop}
    {db : Database} {e : Engine} (unfailing : Engine.Unfailing slot verdict working)
    (works : working db e) :
    Undisturbed (fun _ : Unit => Memory.store) key table ∧
      Undisturbed (fun refusals => File.store refusals file) key fs ∧
      Undisturbed (fun time => DatabaseFile.store time slot) key e := by
  have atFirst : File.Kept file fs fs settings := File.kept_of_load sound read free kept
  exact ⟨(Memory.separates key).undisturbed rfl,
    (File.separates file fs key).undisturbed ⟨settings, settings, atFirst, atFirst, rfl⟩,
    (DatabaseFile.separates unfailing key).undisturbed ⟨db, db, works, works, rfl⟩⟩

/-- Of two registrations under different keys that overlap in one file, none is lost. -/
theorem keys_undisturbed_by_overtaking :
    let d : Descriptor := ⟨"idms", "", "", ""⟩
    let keys (i : Bool) : String := if i then "a" else "b"
    let w := Clients.play (fun refusals => File.store refusals (bytesOf "s"))
      ([true, false, false, true].map (File.Refusals.none, ·))
      ⟨FileSystem.empty, fun i => Catalog.register (keys i) d, []⟩
    (File.get (bytesOf "s") "a" w.state).result = .ok (some (Catalog.encode [d])) ∧
      (File.get (bytesOf "s") "b" w.state).result = .ok (some (Catalog.encode [d])) := by
  intro d keys w
  have undisturbed (key : String) := (keys_undisturbed key [] FileSystem.sound_empty
    (show File.load (bytesOf "s") key FileSystem.empty = .ok [] by with_unfolding_all rfl) (by simp)
    rfl (Engine.unfailing_works 0 (.ok ()))
    (Engine.works_inMemory (show Database.shape? ⟨some ⟨.keyed, []⟩, 1, false⟩ = _ from rfl))).2.1
  have alone (key : String) :=
    ((undisturbed key).clients keys (fun i => Catalog.register (keys i) d)
    ([true, false, false, true].map (File.Refusals.none, ·)) fun i => under_register (keys i) d).2.2
      File.Refusals.none
  have storable := Catalog.storable_encode [d]
  have stored {key : String} {fs : FileSystem}
      (text : fs.readText (bytesOf "s") = .ok (File.document [(key, Catalog.encode [d])])) :
      (File.get (bytesOf "s") key fs).result = .ok (some (Catalog.encode [d])) := by
    have loads := File.load_of_document (by simpa using storable.floatFree)
      ⟨by simp [Members.names], by simpa using storable.canonical, by simpa using storable.depth_lt⟩
      text key
    simp [File.get, loads, Except.map, Members.find?]
  subst d keys
  exact ⟨(alone "a").symm.trans (stored (by cbv)), (alone "b").symm.trans (stored (by cbv))⟩

/-- Where a missing directory hides that a file is in the way, a set under another key that fails
has made the directory, and nothing is read from then on. -/
theorem disturbed_behind_made_directory : ∃ first : FileSystem,
    first.Sound ∧ File.load (bytesOf "d/../x/s") "k" first = .ok [] ∧
      ¬Undisturbed (fun refusals => File.store refusals (bytesOf "d/../x/s")) "k" first := by
  have sound : FileSystem.Sound ⟨[([bytesOf "x"], .file 0)], [⟨.bytes [], 0o644⟩], []⟩ := by
    intro at_ n there
    obtain ⟨-, rfl⟩ : at_ = [bytesOf "x"] ∧ n = 0 := by simpa using there
    exact Nat.zero_lt_one
  refine ⟨_, sound, by cbv, fun undisturbed => ?_⟩
  have sane : ∀ call ∈ [(File.Refusals.none, Request.set "other" .null), (.none, .get "k")],
      call.2.Sane := by
    simp only [List.forall_mem_cons]
    exact ⟨⟨rfl, rfl, by decide⟩, trivial, by simp⟩
  have same := (undisturbed.calls _ sane).1
  cbv at same
  cases same

end CobolDialects.Settings
