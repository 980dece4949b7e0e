import CobolDialects.Proofs.Engine.Unfailing
import CobolDialects.Proofs.Json.Nesting
import CobolDialects.Proofs.Settings.DatabaseFile

/-!
# Rows that others have written

Another program may put anything into the rows of a store's database. A value is what its own cell
says, and so is the time at which a key was written. So a row that is spoilt is of no concern to
other keys, and setting its key mends it.
-/

namespace CobolDialects.Settings.DatabaseFile

open Database

variable {verdict : Except Database.Error Unit} {working : Database → Engine → Prop} {e : Engine}
  {slot : Nat} {db : Database} {rows : List Row} {row : Row} {key : String} {value : Json}

/-! ## Rows -/

/-- The rows have different keys. -/
abbrev DistinctKeys (rows : List Row) : Prop := (rows.map (·.key)).Nodup

/-- The rows of other keys stay as they are, where they are. -/
theorem filter_upsertRow_ne (row : Row) (rows : List Row) :
    (upsertRow row rows).filter (·.key ≠ row.key) = rows.filter (·.key ≠ row.key) := by
  induction rows with
  | nil => simp [upsertRow]
  | cons r rows ih =>
    rw [upsertRow]
    split_ifs with here
    · simp [here]
    · rw [List.filter_cons, List.filter_cons, ih]

theorem filter_upsertRow_eq (distinct : DistinctKeys rows) (row : Row) :
    (upsertRow row rows).filter (·.key = row.key) = [row] := by
  induction rows with
  | nil => simp [upsertRow]
  | cons r rows ih =>
    obtain ⟨other, distinct⟩ := List.nodup_cons.mp distinct
    rw [upsertRow]
    split_ifs with here
    · have none : rows.filter (·.key = row.key) = [] := by
        rw [List.filter_eq_nil_iff]
        intro r' there same
        exact other (List.mem_map.mpr ⟨r', there, (of_decide_eq_true same).trans here.symm⟩)
      simp [none]
    · rw [List.filter_cons, ih distinct]
      simp [here]

theorem distinctKeys_upsertRow (distinct : DistinctKeys rows) (row : Row) :
    DistinctKeys (upsertRow row rows) := by
  induction rows with
  | nil => simp [DistinctKeys, upsertRow]
  | cons r rows ih =>
    obtain ⟨other, distinct⟩ := List.nodup_cons.mp distinct
    rw [upsertRow]
    split_ifs with here
    · exact List.nodup_cons.mpr ⟨fun there => other (by simpa [here] using there), distinct⟩
    · refine List.nodup_cons.mpr ⟨fun there => ?_, ih distinct⟩
      obtain ⟨r', inside, same⟩ := List.mem_map.mp there
      have kept : r' ∈ rows.filter (·.key ≠ row.key) := by
        rw [← filter_upsertRow_ne]
        exact List.mem_filter.mpr ⟨inside, by simpa [same] using here⟩
      exact other (List.mem_map.mpr ⟨r', List.mem_of_mem_filter kept, same⟩)

theorem row?_eq_none : row? rows key = none ↔ ∀ row ∈ rows, row.key ≠ key := by
  simp [row?, List.find?_eq_none]

/-- The row that a write leaves behind. -/
def storedRow (key : String) (value : Json) (time : Int) : Row :=
  ⟨key, .text (bytesOf value.toText), .integer time⟩

/-! ## Cells -/

/-- What is answered for what is in the column of the times. -/
def timeIn : Option Cell → Except Error (Option Int)
  | none => .ok none
  | some cell =>
    match Cell.asInteger cell with
    | .ok time => .ok (some time)
    | .error error => .error (.database error)

theorem valueIn_eq_none {cell? : Option Cell} : valueIn cell? = .ok none ↔ cell? = none := by
  cases cell? with
  | none => simp [valueIn]
  | some cell =>
    simp only [valueIn, reduceCtorEq, iff_false]
    cases Cell.asText cell with
    | error error => simp
    | ok text => cases read : Json.read text <;> simp [decode, read]

theorem timeIn_eq_none {cell? : Option Cell} : timeIn cell? = .ok none ↔ cell? = none := by
  cases cell? with
  | none => simp [timeIn]
  | some cell => cases time : Cell.asInteger cell <;> simp [timeIn, time]

theorem cell?_eq_none {column : Row → Cell} :
    cell? column key db = none ↔ ∀ row ∈ db.rows, row.key ≠ key := by
  rw [cell?, Option.map_eq_none_iff, row?_eq_none]

theorem rows_upsertRow (declared : db.shape? = some .keyed) (row : Row) :
    (db.setRows (upsertRow row db.rows)).rows = upsertRow row db.rows := by
  refine rows_setRows ?_
  cases relation : db.relation with
  | none => simp [shape?, relation] at declared
  | some r => rfl

theorem cell?_upsertRow (declared : db.shape? = some .keyed) (row : Row) (column : Row → Cell)
    (key : String) : cell? column key (db.setRows (upsertRow row db.rows)) =
      if row.key = key then some (column row) else cell? column key db := by
  rw [cell?, rows_upsertRow declared, row?_upsertRow]
  split_ifs <;> rfl

/-! ## Calls -/

section Calls

theorem ofAttempt_comes {α : Type} {a : Attempt α} {result : Except Database.Error α}
    {holds : Engine → Prop} (h : a.Comes e result holds) :
    (ofAttempt a e).result = result.mapError .database ∧ holds (ofAttempt a e).state := by
  obtain ⟨after, ended, still⟩ := h
  unfold ofAttempt
  rw [ended]
  cases result <;> exact ⟨rfl, still⟩

variable (unfailing : Engine.Unfailing slot verdict working) (works : working db e)

include unfailing works

theorem get_comes (key : String) :
    (get slot key e).result = valueIn (cell? (·.value) key db) ∧
      working db (get slot key e).state := by
  have queried := ofAttempt_comes (unfailing.query_comes works (show checkValue _ = _ from rfl)
    (·.value? key))
  have text : db.value? key = decodeRow (fun row => Cell.asText row.value) (row? db.rows key) := by
    rw [Database.value?, unfailing.declared works]
    rfl
  rw [text] at queried
  unfold get Outcome.andThen
  rw [queried.1]
  cases found : row? db.rows key with
  | none => exact ⟨by rw [cell?, found]; rfl, queried.2⟩
  | some row =>
    rw [cell?, found, Option.map_some, valueIn, decodeRow]
    cases Cell.asText row.value <;> exact ⟨rfl, queried.2⟩

theorem updatedAt_comes (key : String) :
    (updatedAt slot key e).result = timeIn (cell? (·.updatedAt) key db) ∧
      working db (updatedAt slot key e).state := by
  obtain ⟨result, still⟩ := ofAttempt_comes (unfailing.query_comes works
    (show checkStamp _ = _ from rfl) (·.updatedAt? key))
  refine ⟨result.trans ?_, still⟩
  rw [Database.updatedAt?, unfailing.declared works]
  cases found : row? db.rows key with
  | none => rw [cell?, found]; rfl
  | some row =>
    rw [cell?, found, Option.map_some, timeIn]
    cases time : Cell.asInteger row.updatedAt <;>
      simp [checkStamp, Shape.stamped, decodeRow, time, Except.map, Except.mapError]

theorem set_comes (time : Int) (key : String) (value : Json) :
    (set time slot key value e).result = verdict.mapError .database ∧
      working (db.judged (upsertRow (storedRow key value time) db.rows) verdict)
        (set time slot key value e).state := by
  have written : db.upsert key value.toText time =
      .ok (db.setRows (upsertRow (storedRow key value time) db.rows)) := by
    rw [Database.upsert, unfailing.declared works]
    rfl
  obtain ⟨result, state⟩ := set_outcome time slot key value e
  rw [result, state]
  exact ofAttempt_comes (unfailing.execute_comes works (show checkUpsert _ = _ from rfl) written)

end Calls

/-! ## What is seen of a write -/

/-- What is answered is found in the cells of the key's own row, each in its column. -/
structure CellWise (slot : Nat) (db : Database) (e : Engine) : Prop where
  value : ∀ key, (get slot key e).result = valueIn (cell? (·.value) key db)
  time : ∀ key, (updatedAt slot key e).result = timeIn (cell? (·.updatedAt) key db)
  no_value : ∀ key, (get slot key e).result = .ok none ↔ ∀ row ∈ db.rows, row.key ≠ key
  no_time : ∀ key, (updatedAt slot key e).result = .ok none ↔ ∀ row ∈ db.rows, row.key ≠ key

theorem cellWise (unfailing : Engine.Unfailing slot verdict working) (works : working db e) :
    CellWise slot db e where
  value key := (get_comes unfailing works key).1
  time key := (updatedAt_comes unfailing works key).1
  no_value key := by rw [(get_comes unfailing works key).1, valueIn_eq_none, cell?_eq_none]
  no_time key := by rw [(updatedAt_comes unfailing works key).1, timeIn_eq_none, cell?_eq_none]

/-- A write has replaced the row of its key, which is now as it has to be, and nothing else. -/
structure Mended (slot : Nat) (key : String) (value : Json) (time : Int) (db changed : Database)
    (before after : Engine) : Prop where
  row : changed.rows.filter (·.key = key) = [storedRow key value time]
  others : changed.rows.filter (·.key ≠ key) = db.rows.filter (·.key ≠ key)
  stamped : (updatedAt slot key after).result = .ok (some time)
  readBack : value.floatFree → value.depth ≤ Json.maxDepth →
    (get slot key after).result = .ok (some value)
  tooDeep : Json.maxDepth < value.depth →
    ∃ error, (get slot key after).result = .error (.json error)
  otherValue : ∀ other ≠ key, (get slot other after).result = (get slot other before).result
  otherTime : ∀ other ≠ key,
    (updatedAt slot other after).result = (updatedAt slot other before).result

/-- A write to a database of a store succeeds, whatever its rows hold, and mends the row of its
key. -/
theorem set_mends_row (unfailing : Engine.Unfailing slot (.ok ()) working) (works : working db e)
    (distinct : DistinctKeys db.rows) (key : String) (canonical : value.IsCanonical) (time : Int) :
    CellWise slot db e ∧ (set time slot key value e).result = .ok () ∧
      ∃ changed, working changed (set time slot key value e).state ∧ DistinctKeys changed.rows ∧
        Mended slot key value time db changed e (set time slot key value e).state := by
  obtain ⟨done, still⟩ := set_comes unfailing works time key value
  change working (db.setRows _) _ at still
  have declared := unfailing.declared works
  have before := cellWise unfailing works
  have after := cellWise unfailing still
  have rows := rows_upsertRow declared (storedRow key value time)
  have own (column : Row → Cell) := (cell?_upsertRow declared (storedRow key value time) column
    key).trans (if_pos rfl)
  have others (column : Row → Cell) {other : String} (ne : other ≠ key) :=
    (cell?_upsertRow declared (storedRow key value time) column other).trans (if_neg ne.symm)
  have text : (get slot key (set time slot key value e).state).result =
      decode (some value.toText) := by
    rw [after.value, own, storedRow, valueIn, asText_text]
  refine ⟨before, done, _, still, by rw [rows]; exact distinctKeys_upsertRow distinct _, ?_⟩
  exact {
    row := by rw [rows]; exact filter_upsertRow_eq distinct (storedRow key value time)
    others := by rw [rows]; exact filter_upsertRow_ne (storedRow key value time) db.rows
    stamped := by rw [after.time, own]; rfl
    readBack := fun free levels => by rw [text, decode, Json.read_toText canonical free levels]
    tooDeep := fun deep => by
      obtain ⟨error, failed⟩ := Json.read_toText_of_deep deep
      exact ⟨error, by rw [text, decode, failed]⟩
    otherValue := fun other ne => by rw [after.value, before.value, others _ ne]
    otherTime := fun other ne => by rw [after.time, before.time, others _ ne] }

/-- A row without a value or a time is mended, beside one that stays spoilt. -/
theorem set_mends_blob :
    let rows : List Row := [⟨"a", .text [0xFF], .null⟩, ⟨"k", .blob [1], .text [120]⟩]
    let db : Database := ⟨some ⟨.keyed, rows⟩, 1, false⟩
    let e := Engine.inMemory db
    let after := (set 7 0 "k" (.arr []) e).state
    Engine.Unfailing 0 (.ok ()) (Engine.Works 0 (.ok ())) ∧ Engine.Works 0 (.ok ()) db e ∧
      DistinctKeys db.rows ∧
      (Json.arr []).IsCanonical ∧ CellWise 0 db e ∧
      (get 0 "k" e).result = .error (.database (.wrongClass (.blob [1]) .value)) ∧
      (get 0 "k" after).result = .ok (some (.arr [])) ∧
      (updatedAt 0 "k" after).result = .ok (some 7) ∧
      (get 0 "a" after).result = (get 0 "a" e).result := by
  intro rows db e after
  have works : Engine.Works 0 (.ok ()) db e := Engine.works_inMemory rfl
  have distinct : DistinctKeys db.rows := by decide
  obtain ⟨cellWise, -, changed, -, -, mended⟩ :=
    set_mends_row (Engine.unfailing_works 0 (.ok ())) works distinct "k"
      (show (Json.arr []).IsCanonical from rfl) 7
  refine ⟨Engine.unfailing_works 0 (.ok ()), works, distinct, rfl, cellWise, ?_, ?_,
    mended.stamped, ?_⟩
  · exact cellWise.value "k"
  · exact mended.readBack rfl (by decide)
  · exact mended.otherValue "a" (by decide)

end CobolDialects.Settings.DatabaseFile
