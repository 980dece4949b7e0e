import CobolDialects.Proofs.Engine.Reading
import CobolDialects.Proofs.Json.RoundTrip
import CobolDialects.Proofs.Settings.Contract
import CobolDialects.Settings.DatabaseFile
import Mathlib.Data.List.Forall2

/-!
# Settings in a database

The rows of the database that a connection sees hold the texts of a table's values, in the order of
the table. A set that succeeds replaces the row of a key where it stands, as the table replaces the
member, so a database keeps a table too. The value of a single key it keeps whatever the other rows
hold.
-/

namespace CobolDialects.Settings.DatabaseFile

open Database

variable {e : Engine} {slot : Nat} {db changed : Database} {rows : List Row} {table : Members}
  {key : String} {value : Json}

/-! ## Rows -/

theorem row?_upsertRow (rows : List Row) (row : Row) (key : String) :
    row? (upsertRow row rows) key = if row.key = key then some row else row? rows key := by
  induction rows with
  | nil => simp [upsertRow, row?, List.find?_singleton]
  | cons r rows ih =>
    unfold row? at ih ⊢
    rw [upsertRow]
    split_ifs with here same same
    · simp [same]
    · simp [same, here]
    · rw [List.find?_cons, ih, if_pos same]
      have other : r.key ≠ key := fun again => here (again.trans same.symm)
      simp [other]
    · rw [List.find?_cons, List.find?_cons, ih, if_neg same]

theorem rows_setRows (declared : db.relation.isSome) : (db.setRows rows).rows = rows := by
  obtain ⟨r, same⟩ := Option.isSome_iff_exists.mp declared
  simp [Database.rows, setRows, same]

/-- A write that is carried out puts its row where the one of its key stood, or at the end. -/
theorem rows_of_upsert {time : Int} (written : db.upsert key value.toText time = .ok changed) :
    changed.rows = upsertRow ⟨key, .text (bytesOf value.toText), .integer time⟩ db.rows := by
  unfold Database.upsert at written
  split at written
  · cases written
  · rename_i checked
    have declared : db.relation.isSome := by
      cases relation : db.relation with
      | none => simp [checkUpsert, shape?, relation] at checked
      | some r => rfl
    rw [← Except.ok.inj written, rows_setRows declared]

/-! ## Cells -/

/-- What is in a column of the row of a key, if there is such a row. -/
def cell? (column : Row → Cell) (key : String) (db : Database) : Option Cell :=
  (row? db.rows key).map column

/-- What is answered for what is in the column of the values. -/
def valueIn : Option Cell → Except Error (Option Json)
  | none => .ok none
  | some cell =>
    match Cell.asText cell with
    | .ok text => decode (some text)
    | .error error => .error (.database error)

theorem asText_text (text : String) : Cell.asText (.text (bytesOf text)) = .ok text := by
  simp [Cell.asText, bytesOf]

/-- A cell in which a value has been stored gives the value back. -/
theorem valueIn_toText (storable : Storable value) :
    valueIn (some (.text (bytesOf value.toText))) = .ok (some value) := by
  have read := Json.read_toText storable.canonical storable.floatFree
    (Nat.le_of_lt storable.depth_lt)
  rw [valueIn, asText_text]
  simp only [decode, read]

theorem decode_of_value? {text? : Option String} (found : db.value? key = .ok text?) :
    decode text? = valueIn (cell? (·.value) key db) := by
  unfold Database.value? at found
  split at found
  · cases found
  · cases there : row? db.rows key with
    | none =>
      rw [there] at found
      rw [← Except.ok.inj found, cell?, there]
      rfl
    | some row =>
      rw [there, decodeRow] at found
      rw [cell?, there, Option.map_some, valueIn]
      cases text : Cell.asText row.value with
      | error error => simp [text, Except.map] at found
      | ok s =>
        simp only [text, Except.map, Except.ok.injEq] at found
        rw [← found]

theorem cell?_of_upsert {time : Int} (written : db.upsert key value.toText time = .ok changed) :
    cell? (·.value) key changed = some (.text (bytesOf value.toText)) := by
  rw [cell?, rows_of_upsert written, row?_upsertRow, if_pos rfl]
  rfl

/-! ## Tables -/

/-- The row holds the value of a member. -/
def Stores (row : Row) (m : String × Json) : Prop :=
  row.key = m.1 ∧ row.value = .text (bytesOf m.2.toText)

theorem row?_of_stores (h : List.Forall₂ Stores rows table) (key : String) :
    (row? rows key).map (·.value) = (table.find? key).map fun v => .text (bytesOf v.toText) := by
  induction h with
  | nil => rfl
  | @cons row m rows table stores _ ih =>
    obtain ⟨sameKey, sameValue⟩ := stores
    rw [row?] at ih ⊢
    rw [List.find?_cons, Members.find?, sameKey]
    by_cases here : m.1 = key
    · simp [here, sameValue]
    · simpa [here] using ih

theorem upsertRow_stores (h : List.Forall₂ Stores rows table) {row : Row}
    (stores : Stores row (key, value)) :
    List.Forall₂ Stores (upsertRow row rows) (table.upsert key value) := by
  induction h with
  | nil => exact .cons stores .nil
  | @cons old m rows table there rest ih =>
    rw [upsertRow, Members.upsert, there.1, stores.1]
    split_ifs with same
    · exact .cons ⟨stores.1.trans same.symm, stores.2⟩ rest
    · exact .cons there ih

/-- The rows of a database hold a table. -/
structure Tabled (db : Database) (table : Members) : Prop where
  rows : List.Forall₂ Stores db.rows table
  storable : ∀ m ∈ table, Storable m.2

theorem Tabled.valueIn (h : Tabled db table) (key : String) :
    DatabaseFile.valueIn (cell? (·.value) key db) = .ok (table.find? key) := by
  rw [cell?, row?_of_stores h.rows key]
  cases found : table.find? key with
  | none => rfl
  | some v => exact valueIn_toText (h.storable (key, v) (Members.mem_of_find? found))

theorem Tabled.upsert (h : Tabled db table) (storable : Storable value) {time : Int}
    (written : db.upsert key value.toText time = .ok changed) :
    Tabled changed (table.upsert key value) where
  rows := by
    rw [rows_of_upsert written]
    exact upsertRow_stores h.rows ⟨rfl, rfl⟩
  storable m there := by
    rcases Members.mem_upsert there with rfl | there
    · exact storable
    · exact h.storable m there

/-! ## The store -/

/-- The connection sees a database whose rows hold the table. -/
def Holds (slot : Nat) (e : Engine) (table : Members) : Prop :=
  ∃ db, Engine.Serves slot db e ∧ Tabled db table

theorem ofAttempt_ends {α : Type} {a : Attempt α} {post : α → Engine → Prop}
    {lost : Engine → Prop} (h : a.Ends e post lost) :
    (∃ x, (ofAttempt a e).result = .ok x ∧ post x (ofAttempt a e).state) ∨
      ∃ error, (ofAttempt a e).result = .error (.database error) := by
  unfold Attempt.Ends at h
  unfold ofAttempt
  cases ended : a.on e with
  | mk result after =>
    rw [ended] at h
    cases result with
    | ok x => exact .inl ⟨x, rfl, h⟩
    | error error => exact .inr ⟨error, rfl⟩

theorem result_ofAttempt {α : Type} (a : Attempt α) (e : Engine) :
    (ofAttempt a e).result = (a.on e).1.mapError .database := by
  unfold ofAttempt
  rcases a.on e with ⟨_ | x, after⟩ <;> rfl

theorem state_ofAttempt {α : Type} {a : Attempt α} {holds : Engine → Prop}
    (h : a.Ends e (fun _ => holds) holds) : holds (ofAttempt a e).state := by
  have state : (ofAttempt a e).state = (a.on e).2 := by
    unfold ofAttempt
    rcases a.on e with ⟨_ | x, after⟩ <;> rfl
  exact state ▸ h.behind

/-- What is left behind by a statement that fails. -/
theorem state_of_failed {α : Type} {a : Attempt α} {post : α → Engine → Prop} {lost : Engine → Prop}
    {error : Error} (h : a.Ends e post lost) (failed : (ofAttempt a e).result = .error error) :
    lost (ofAttempt a e).state := by
  unfold Attempt.Ends at h
  unfold ofAttempt at failed ⊢
  generalize a.on e = o at h failed ⊢
  obtain ⟨_ | x, after⟩ := o
  · exact h
  · cases failed

theorem reporting_result {α : Type} (event : Event) (o : Outcome Engine α) :
    (reporting event o).result = o.result ∧ (reporting event o).state = o.state := by
  unfold reporting
  split <;> exact ⟨rfl, rfl⟩

/-- A set is a statement that writes, but for what it reports. -/
theorem set_outcome (time : Int) (slot : Nat) (key : String) (value : Json) (e : Engine) :
    (set time slot key value e).result =
        (ofAttempt (Engine.execute slot checkUpsert (·.upsert key value.toText time)) e).result ∧
      (set time slot key value e).state =
        (ofAttempt (Engine.execute slot checkUpsert (·.upsert key value.toText time)) e).state :=
  reporting_result _ _

/-- What is answered for a key is told by its own cell. -/
theorem get_gives (serves : Engine.Serves slot db e) (key : String) :
    (get slot key e).Gives (·.className = "Database") (valueIn (cell? (·.value) key db))
      (Engine.Serves slot db) := by
  unfold get Outcome.andThen
  rcases ofAttempt_ends (Engine.query_serves serves checkValue (·.value? key)) with
    ⟨text?, answer, found, after⟩ | ⟨error, failed⟩
  · rw [answer]
    exact .inl ⟨decode_of_value? found, after⟩
  · rw [failed]
    exact .inr ⟨.database error, rfl, rfl⟩

theorem set_gives (serves : Engine.Serves slot db e) (time : Int) (key : String) (value : Json) :
    (set time slot key value e).Gives (·.className = "Database") (.ok ()) fun after =>
      ∃ changed, db.upsert key value.toText time = .ok changed ∧
        Engine.Serves slot changed after := by
  obtain ⟨result, state⟩ := set_outcome time slot key value e
  rcases ofAttempt_ends (Engine.execute_serves serves checkUpsert
    (·.upsert key value.toText time)) with
    ⟨_, answer, changed, written, after, -⟩ | ⟨error, failed⟩
  · exact .inl ⟨result.trans answer, changed, written, state ▸ after⟩
  · exact .inr ⟨.database error, rfl, result.trans failed⟩

/-- A database keeps a table, unless the database itself fails. -/
theorem keeps (time : Int) (slot : Nat) :
    Keeps (store time slot) (Holds slot) (·.className = "Database") where
  get := by
    rintro e table key ⟨db, serves, tabled⟩
    have got := get_gives serves key
    rw [tabled.valueIn] at got
    exact got.mono fun after served => ⟨db, served, tabled⟩
  set := by
    rintro e table value key ⟨db, serves, tabled⟩ storable
    exact (set_gives serves time key value).mono fun after ⟨changed, written, served⟩ =>
      ⟨changed, served, tabled.upsert storable written⟩

/-- What a database has under one key it keeps, whatever is in the other rows and however the value
is written down. -/
theorem keepsUnder (time : Int) (slot : Nat) (key : String) :
    KeepsUnder key (store time slot)
      (fun e value? => ∃ db, Engine.Serves slot db e ∧
        valueIn (cell? (·.value) key db) = .ok value?) (·.className = "Database") where
  get := by
    rintro e value? ⟨db, serves, same⟩
    have got := get_gives serves key
    rw [same] at got
    exact got.mono fun after served => ⟨db, served, same⟩
  set := by
    rintro e value? value ⟨db, serves, -⟩ storable
    refine (set_gives serves time key value).mono fun after ⟨changed, written, served⟩ => ?_
    exact ⟨changed, served, cell?_of_upsert written ▸ valueIn_toText storable⟩

theorem state_get (slot : Nat) (key : String) (e : Engine) : (get slot key e).state =
    (ofAttempt (Engine.query slot checkValue (·.value? key)) e).state := by
  unfold get Outcome.andThen
  cases (ofAttempt (Engine.query slot checkValue (·.value? key)) e).result <;> rfl

/-- Whatever else uses the database, a value is read without any file being changed. -/
theorem undisturbed_get (held : Engine.Holding slot True e) (key : String) :
    Engine.Undisturbed slot e (get slot key e).state := by
  rw [state_get]
  exact state_ofAttempt (Engine.spares_query checkValue (·.value? key) e held)

/-! ## Opening -/

/-- What comes of connecting and adopting is what comes of opening a store on a name. -/
theorem connect_ends {name : Path} (holds : Nat → Engine → Prop)
    (h : (Engine.connectAnd name Engine.adopt).Ends e (fun opened => holds opened.1) fun _ => True)
    (done : (connect name e).result = .ok slot) : holds slot (connect name e).state := by
  obtain ⟨result, state⟩ := reporting_result .databaseReady
    ((ofAttempt (Engine.connectAnd name Engine.adopt) e).map (·.1))
  rw [connect, result] at done
  rw [connect, state]
  rcases ofAttempt_ends h with ⟨opened, answer, held⟩ | ⟨error, failed⟩
  · rw [Outcome.map, answer] at done
    obtain rfl : opened.1 = slot := Except.ok.inj done
    exact held
  · rw [Outcome.map, failed] at done
    cases done

theorem connect_holding (sound : e.Sound) (name : Path)
    (h : (connect name e).result = .ok slot) :
    Engine.Holding slot True (connect name e).state :=
  connect_ends (fun slot => Engine.Holding slot True) (Engine.connectAnd_holding sound name) h

/-- The engine once the directories above a path are made, as far as that is possible. -/
def withDirectories (path : Path) (e : Engine) : Engine :=
  e.setFiles (e.files.makeDirectories (path.directory?.getD [])).2

theorem sound_withDirectories (sound : e.Sound) (path : Path) :
    (withDirectories path e).Sound :=
  sound.setFiles (sound.files.makeDirectories _)
    (Nat.le_of_eq (congrArg List.length FileSystem.grown_makeDirectories.nodes.symm))

theorem openPath_of_ok {path : Path} (done : (openPath path e).result = .ok slot) :
    (connect path (withDirectories path e)).result = .ok slot ∧
      (openPath path e).state = (connect path (withDirectories path e)).state := by
  unfold openPath withDirectories at *
  cases making : e.files.makeDirectories (path.directory?.getD []) with
  | mk result files =>
    rw [making] at done
    cases result with
    | error fault => cases done
    | ok => exact ⟨done, rfl⟩

/-- A store that has been opened has a connection that is settled. -/
theorem openPath_holding (sound : e.Sound) (path : Path)
    (h : (openPath path e).result = .ok slot) :
    Engine.Holding slot True (openPath path e).state := by
  obtain ⟨done, state⟩ := openPath_of_ok h
  rw [state]
  exact connect_holding (sound_withDirectories sound path) path done

theorem eq_none_of_decode {text? : Option String} (h : decode text? = .ok none) : text? = none := by
  cases text? with
  | none => rfl
  | some text => cases read : Json.read text <;> simp [decode, read] at h

theorem row?_of_value? (h : db.value? key = .ok none) : row? db.rows key = none := by
  unfold Database.value? at h
  split at h
  · cases h
  · cases found : row? db.rows key with
    | none => rfl
    | some row =>
      rw [found, decodeRow] at h
      cases text : Cell.asText row.value <;> simp [text, Except.map] at h

/-- A settled connection under which no key has a value holds no row. -/
theorem holds_nil (held : Engine.Holding slot True e)
    (unset : ∀ key, (get slot key e).result = .ok none) : Holds slot e [] := by
  obtain ⟨c, open_, settled⟩ := held.connection
  cases seen : e.seen c with
  | error error =>
    refine ⟨.empty, ⟨held.sound, c, open_, settled trivial, fun other absurd => ?_⟩, .nil, by simp⟩
    rw [seen] at absurd
    cases absurd
  | ok db =>
    have serves : Engine.Serves slot db e := by
      refine ⟨held.sound, c, open_, settled trivial, fun other again => ?_⟩
      exact (Except.ok.inj (seen.symm.trans again)).symm
    have missing (key : String) : row? db.rows key = none := by
      have answer := unset key
      unfold get Outcome.andThen at answer
      rcases ofAttempt_ends (Engine.query_serves serves checkValue (·.value? key)) with
        ⟨text?, found, value, -⟩ | ⟨error, failed⟩
      · rw [found] at answer
        obtain rfl := eq_none_of_decode answer
        exact row?_of_value? value
      · rw [failed] at answer
        cases answer
    refine ⟨db, serves, ?_, by simp⟩
    cases rows : db.rows with
    | nil => exact .nil
    | cons row rest =>
      have found := missing row.key
      simp [rows, row?] at found

end CobolDialects.Settings.DatabaseFile
