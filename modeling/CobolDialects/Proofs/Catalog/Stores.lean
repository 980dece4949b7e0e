import CobolDialects.Proofs.Catalog.Alone
import CobolDialects.Proofs.Catalog.Registration
import CobolDialects.Proofs.Settings.Keys

/-!
# The stores at hand

A value is kept in memory, in a settings file and in a database until it is replaced, and a call
that fails changes nothing, even where the system refuses calls. Where it does not, registrations in
a file or in a database succeed, and the list is read behind them.
-/

namespace CobolDialects.Catalog

open Settings

/-! ## Stores that are steady -/

theorem steady_memory (key : String) :
    Steady (fun _ : Unit => Memory.store) key (fun table value? => table.find? key = value?)
      fun _ => False where
  get _ same := .inl ⟨same, same⟩
  set _ _ _ := .inl <| by simp [Memory.store, Members.find?_upsert, Except.isOk, Except.toBool]

/-- A settings file, whatever the system refuses. -/
theorem steady_file (file : Path) (first : FileSystem) (key : String) :
    Steady (fun refusals => File.store refusals file) key
      (fun fs value? => ∃ table, File.Kept file first fs table ∧ table.find? key = value?)
      fun _ => False where
  get := by
    rintro fs value? refusals ⟨table, kept, same⟩
    refine .inl ⟨?_, table, kept, same⟩
    simp only [File.store, File.get, kept.load, Except.map, Fetches, same]
  set := by
    rintro fs value? value refusals ⟨table, kept, same⟩ storable
    obtain ⟨answer, still⟩ := kept.set refusals key storable
    refine .inl ⟨_, still, ?_⟩
    simp only [File.store, answer]
    cases (File.save refusals file [] first).1 with
    | ok => simp [Members.find?_upsert, Except.mapError, Except.isOk, Except.toBool]
    | error => simpa [Except.mapError, Except.isOk, Except.toBool] using same

/-- A database whose statements are carried out, or whose writes are all refused. -/
theorem steady_database {verdict : Except Database.Error Unit}
    {working : Database → Engine → Prop} {slot : Nat}
    (unfailing : Engine.Unfailing slot verdict working) (key : String) :
    Steady (fun time => DatabaseFile.store time slot) key
      (fun e value? => ∃ db, working db e ∧
        DatabaseFile.valueIn (DatabaseFile.cell? (·.value) key db) = .ok value?)
      fun _ => False where
  get := by
    rintro e value? time ⟨db, works, same⟩
    obtain ⟨answer, still⟩ := DatabaseFile.get_comes unfailing works key
    refine .inl ⟨?_, db, still, same⟩
    simp only [DatabaseFile.store, answer, same, Fetches]
  set := by
    rintro e value? value time ⟨db, works, same⟩ storable
    obtain ⟨answer, still⟩ := DatabaseFile.set_comes unfailing works time key value
    refine .inl ⟨_, still, ?_⟩
    rw [DatabaseFile.cell?_judged (unfailing.declared works)]
    simp only [DatabaseFile.store, answer]
    cases verdict with
    | ok =>
      simp [DatabaseFile.storedRow, DatabaseFile.valueIn_toText storable, Except.mapError,
        Except.isOk, Except.toBool]
    | error => simpa [Except.mapError, Except.isOk, Except.toBool] using same

/-! ## Stores without faults -/

variable {key : String} {old : List Descriptor}

/-- Where the system permits to save, a settings file has all registrations in its list. -/
theorem list_in_file {refusals : Nat → File.Refusals} {file : Path} {first fs : FileSystem}
    {table : Members} (kept : File.Kept file first fs table)
    (permitted : ∀ n, (File.save (refusals n) file [] first).1 = .ok ())
    (stored : listOf key (table.find? key) = .ok old) (ds : List Descriptor) :
    let run := Action.inTurn (fun n => File.store (refusals n) file) (ds.map (register key)) fs
    (∀ r ∈ run.1, r = .ok ()) ∧
      ((list key).run (File.store (refusals ds.length) file) run.2).result =
        .ok (upsertAll old ds) :=
  list_of_faultless (fun n => File.keepsUnder_of_kept (permitted n) key) ⟨table, kept, rfl⟩
    stored ds

/-- Where every statement is carried out, a database has all registrations in its list. -/
theorem list_in_database {working : Database → Engine → Prop} {slot : Nat} {db : Database}
    {e : Engine} (unfailing : Engine.Unfailing slot (.ok ()) working) (works : working db e)
    {value? : Option Json}
    (value : DatabaseFile.valueIn (DatabaseFile.cell? (·.value) key db) = .ok value?)
    (stored : listOf key value? = .ok old) (times : Nat → Int) (ds : List Descriptor) :
    let run := Action.inTurn (fun n => DatabaseFile.store (times n) slot) (ds.map (register key)) e
    (∀ r ∈ run.1, r = .ok ()) ∧
      ((list key).run (DatabaseFile.store (times ds.length) slot) run.2).result =
        .ok (upsertAll old ds) :=
  list_of_faultless (fun n => DatabaseFile.keepsUnder_of_unfailing unfailing (times n) key)
    ⟨db, works, value⟩ stored ds

end CobolDialects.Catalog
