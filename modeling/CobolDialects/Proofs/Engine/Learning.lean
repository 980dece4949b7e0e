import CobolDialects.Proofs.Engine.Adopting
import CobolDialects.Proofs.Engine.Reading

/-!
# What connections have learnt

Others change a declaration without telling. So what a connection knows of it may be out of date,
but it is never ahead, and never wrong about a version. That is enough to say which statements are
understood, and it stays so whatever is done with the database.
-/

namespace CobolDialects.Engine

open Attempt Database

variable {base : FileSystem} {at_ : Location} {f : Files} {slots : Set Nat}
  {knows : Database → Option Declaration → Prop} {known : Option Declaration} {d : Declaration}
  {db : Database} {e : Engine} {slot : Nat} {c : Connection} {check : Check}

/-! ## Earlier declarations -/

/-- What is known of the declaration of a database was so at its version, which is not ahead. -/
def Informed (db : Database) (known : Option Declaration) : Prop :=
  ∀ d, known = some d → d.version ≤ db.version ∧ (d.version = db.version → d.shape = db.shape?)

theorem informed_none : Informed db none := nofun

theorem informed_declaration (db : Database) : Informed db (some db.declaration) := by
  intro d told
  obtain rfl := Option.some.inj told
  exact ⟨le_refl _, fun _ => rfl⟩

theorem Known.informed (h : Known db known) : Informed db known := by
  intro d told
  obtain ⟨rfl, -⟩ := h d told
  exact informed_declaration db _ rfl

theorem Informed.setRows (h : Informed db known) (rows : List Row) :
    Informed (db.setRows rows) known := by
  intro d told
  rw [shape?_setRows]
  exact h d told

/-- A new declaration makes whatever was known an earlier one. -/
theorem Informed.redeclare (h : Informed db known) (relation : Option Relation) :
    Informed (db.redeclare relation) known := by
  intro d told
  have le := (h d told).1
  have lt : d.version < (db.redeclare relation).version := Nat.lt_succ_of_le le
  exact ⟨Nat.le_of_lt lt, fun same => absurd same (Nat.ne_of_lt lt)⟩

theorem Informed.declare (h : Informed db known) : Informed db.declare known := by
  cases relation : db.relation with
  | none =>
    simp only [Database.declare, relation]
    exact h.redeclare _
  | some r => rwa [declare_of_some (by simp [relation])]

/-- Who knows the version knows the declaration. -/
theorem Informed.shape_eq (h : Informed db known) (current : UpToDate db known) :
    (known.getD db.declaration).shape = db.shape? := by
  cases known with
  | none => rfl
  | some d => exact (h d rfl).2 (current d rfl)

/-! ## Which statements are understood -/

theorem understood_of_upToDate (h : Informed db known) (current : UpToDate db known)
    (check : Check) : understood (known.getD db.declaration) db check = check db.shape? := by
  have version : db.version = (known.getD db.declaration).version := by
    cases known with
    | none => rfl
    | some d => exact (current d rfl).symm
  unfold understood
  rw [h.shape_eq current, ← version]
  cases checked : check db.shape? <;> simp

/-- A statement that is not dismissed comes to what it would come to if the connection knew the
declaration, as long as its errors are told alike. -/
theorem understood_of_not_dismissed (h : Informed db known)
    (heard : ∀ d, known = some d → ¬Dismissed d check)
    (alike : ∀ shape, (check shape).mapError Error.retold = check shape) :
    understood (known.getD db.declaration) db check = check db.shape? := by
  cases known with
  | none => exact understood_of_upToDate informed_none nofun check
  | some d =>
    by_cases same : d.version = db.version
    · exact understood_of_upToDate h (fun _ told => Option.some.inj told ▸ same) check
    · simp only [Option.getD_some, understood]
      cases checked : check d.shape with
      | ok => simp [Ne.symm same, alike]
      | error error =>
        have lack : error.isLack = true := by
          by_contra absurd
          exact heard d rfl ⟨error, checked, Bool.eq_false_iff.mpr absurd⟩
        simp [Ne.symm same, lack]

theorem understood_of_dismissed {error : Error} (dismissed : check d.shape = .error error)
    (final : error.isLack = false) : understood d db check = .error error := by
  simp [understood, dismissed, final]

theorem check_of_understood (h : Informed db known)
    (alike : ∀ shape, (check shape).mapError Error.retold = check shape)
    (understands : understood (known.getD db.declaration) db check = .ok ()) :
    check db.shape? = .ok () := by
  rw [← understands]
  refine (understood_of_not_dismissed h (fun d told dismissed => ?_) alike).symm
  obtain ⟨error, checked, final⟩ := dismissed
  rw [told, Option.getD_some, understood_of_dismissed checked final] at understands
  cases understands

/-- Only a table without a key and a view rule out for good that rows are replaced. -/
theorem dismissed_upsert :
    Dismissed d checkUpsert ↔ d.shape = some .unkeyed ∨ d.shape = some .view := by
  unfold Dismissed
  cases d.shape with
  | none => simp [checkUpsert, Error.isLack]
  | some shape => cases shape <;> simp [checkUpsert, Error.isLack]

theorem retold_upsert (shape : Option Shape) :
    (checkUpsert shape).mapError Error.retold = checkUpsert shape := by
  cases shape with
  | none => rfl
  | some shape => cases shape <;> rfl

/-- No question about rows is ruled out for good. -/
theorem not_dismissed_of_asks (h : check = checkValue ∨ check = checkStamp) :
    ¬Dismissed d check := by
  rintro ⟨error, checked, final⟩
  rcases h with rfl | rfl <;> cases shape : d.shape with
  | none =>
    rw [shape] at checked
    cases checked
    cases final
  | some s =>
    rw [shape] at checked
    cases s <;> cases checked <;> cases final

/-! ## Connections that attend to a database -/

/-- The connection attends to the database, knowing something of the declaration. One that shares
the declaration with others knows nothing of its own. -/
structure Attending (slot : Nat) (c : Connection) (known : Option Declaration) (db : Database)
    (e : Engine) : Prop where
  attends : ∃ cached, Attends slot { c with known, cached } db e
  informed : Informed db known
  sharing : c.sharing = true → known = none

/-- Reading is never barred, and writing is if the connection is not to write. -/
theorem consulting_attending (slot : Nat) (c : Connection) (writing : Bool) :
    Consulting slot writing (writing = true ∧ verdictOn c ≠ .ok ()) (Attending slot c) where
  connection h := by
    obtain ⟨cached, attends⟩ := h.attends
    exact ⟨_, attends.connection, rfl⟩
  view h := by
    obtain ⟨cached, attends⟩ := h.attends
    exact .inl (attends.view_comes.mono fun _ still => ⟨still, h.informed, h.sharing⟩)
  learn {known db e} h := by
    obtain ⟨cached, attends⟩ := h.attends
    have learnt := attends.learned db.declaration
    cases sharing : c.sharing with
    | true =>
      rw [if_pos sharing] at learnt
      obtain rfl := h.sharing sharing
      exact ⟨none, nofun, ⟨cached, learnt⟩, informed_none, h.sharing⟩
    | false =>
      rw [if_neg (by simp [sharing])] at learnt
      exact ⟨some db.declaration, fun d told => Option.some.inj told ▸ rfl, ⟨cached, learnt⟩,
        informed_declaration db, by simp [sharing]⟩
  writable {known db e} writes h := by
    obtain ⟨cached, attends⟩ := h.attends
    have writable := requireWritable_comes attends.connection
    cases readOnly : c.readOnly with
    | false =>
      simp only [readOnly] at writable
      exact .inl (writable.mono fun _ same => same ▸ h)
    | true =>
      simp only [readOnly] at writable
      have judged : verdictOn c ≠ .ok () := by simp [verdictOn, readOnly]
      exact .inr ⟨⟨writes, judged⟩, _, writable.mono fun _ _ => trivial⟩

theorem Attended.attends (h : Attended base at_ f slots knows db e) (sound : e.Sound)
    (open_ : e.connection? slot = some c) : Attends slot c db e := by
  obtain ⟨partakes, -⟩ := h.partakes slot c open_
  have remembering : Partakes at_ f db { c with cached := some db } :=
    { partakes with cached := fun _ same => (Option.some.inj same).symm }
  exact ⟨sound, open_, .inr (.inr (by simp [partakes.log])), h.files.seen partakes,
    h.files.seen remembering⟩

end CobolDialects.Engine
