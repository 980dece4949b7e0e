import CobolDialects.Proofs.Engine.Company
import CobolDialects.Proofs.Engine.Finding
import CobolDialects.Proofs.Engine.Obstacles
import CobolDialects.Proofs.Settings.Agreement
import CobolDialects.Proofs.Settings.Handles
import CobolDialects.Session.Run

/-!
# Settings relations of any shape

Another program may leave the settings relation in a shape that a store would not give it, or take
it away, while a store has the database open. A set puts the row of its key in its place, or it
fails and leaves everything as it was; which of the two is told by the shape, and not by what is
stored. It is told by an earlier shape if that was one in which no row can be replaced, until the
store looks again.
-/

namespace CobolDialects.Settings.DatabaseFile

open Database Engine

variable {path : Path} {e : Engine} {slot : Nat} {c : Connection} {db changed : Database}
  {key : String} {value : Json} {time : Int}

/-! ## All or nothing -/

/-- The connection in the slot sees the database. -/
def Sees (slot : Nat) (db : Database) (e : Engine) : Prop :=
  ∃ c, e.connection? slot = some c ∧ e.seen c = .ok db

instance (slot : Nat) (db : Database) (e : Engine) : Decidable (Sees slot db e) :=
  decidable_of_iff ((e.connection? slot).any fun c => e.seen c = .ok db) <| by
    simp [Sees, Option.any_eq_true]

/-- A row has been put where the one of its key stood, or at the end, and nothing else has
changed. -/
structure Replaced (row : Row) (db changed : Database) : Prop where
  keyed : db.shape? = some .keyed
  rows : changed.rows = upsertRow row db.rows
  own : DistinctKeys db.rows → changed.rows.filter (·.key = row.key) = [row]
  others : changed.rows.filter (·.key ≠ row.key) = db.rows.filter (·.key ≠ row.key)
  declaration : changed.declaration = db.declaration
  logged : changed.logged = db.logged

/-- All files hold what they held, and whoever has a database open sees it as before. The store can
be worked with further. -/
structure Untouched (slot : Nat) (e after : Engine) : Prop where
  held : Holding slot True after
  nodes : after.files.nodes = e.files.nodes
  own : ∀ {db db'}, Sees slot db e → Sees slot db' after → db' = db
  others : ∀ other ≠ slot, ∀ db, Sees other db after ↔ Sees other db e

/-- A set replaces one row or does nothing. Which of the two is not told by what is to be stored,
and what keeps it from replacing a row is an obstacle below the database or some shape. Reading does
nothing, and neither does adopting a database that has a relation. -/
structure AllOrNothing (slot : Nat) (e : Engine) : Prop where
  stores : ∀ {time key value}, (set time slot key value e).result = .ok () → ∃ db changed,
    Sees slot db e ∧ Sees slot changed (set time slot key value e).state ∧
      Replaced (storedRow key value time) db changed ∧
      Holding slot True (set time slot key value e).state
  fails : ∀ {time key value error}, (set time slot key value e).result = .error error →
    Untouched slot e (set time slot key value e).state
  reasons : ∀ {time key value error}, (set time slot key value e).result = .error error →
    (∃ o, error = .database (.obstacle o)) ∨
      ∃ shape refusal, checkUpsert shape = .error refusal ∧ error = .database refusal
  blind : ∀ time time' key key' value value',
    (set time slot key value e).result = (set time' slot key' value' e).result
  get : ∀ key, Untouched slot e (get slot key e).state
  updatedAt : ∀ key, Untouched slot e (updatedAt slot key e).state
  adopt : ∀ {db}, Sees slot db e → db.shape?.isSome → Untouched slot e ((Engine.adopt slot).on e).2

theorem Sees.serves (h : Sees slot db e) (held : Holding slot True e) : Serves slot db e := by
  obtain ⟨c, open_, seen⟩ := h
  obtain ⟨c', open', settled⟩ := held.connection
  obtain rfl := Option.some.inj (open_.symm.trans open')
  exact ⟨held.sound, c, open_, settled trivial, fun db' again =>
    Except.ok.inj (again.symm.trans seen)⟩

theorem untouched_of_undisturbed {after : Engine} (h : Engine.Undisturbed slot e after)
    (serves : ∀ db, Serves slot db e → Serves slot db after) (held : Holding slot True e) :
    Untouched slot e after where
  held := h.held
  nodes := h.nodes
  own before now := by
    obtain ⟨c, open_, -, sees⟩ := (serves _ (before.serves held)).connection
    obtain ⟨c', open', seen⟩ := now
    obtain rfl := Option.some.inj (open_.symm.trans open')
    exact sees _ seen
  others other ne db := by
    unfold Sees
    rw [h.others other ne]
    simp only [h.seen]

theorem rows_of_keyed (keyed : db.shape? = some .keyed) (time : Int) (key : String) (value : Json) :
    db.upsert key value.toText time =
      .ok (db.setRows (upsertRow (storedRow key value time) db.rows)) := by
  rw [Database.upsert, keyed]
  rfl

theorem replaced_of_upsert (written : db.upsert key value.toText time = .ok changed) :
    Replaced (storedRow key value time) db changed := by
  have keyed : db.shape? = some .keyed := by
    unfold Database.upsert at written
    split at written
    · cases written
    · rename_i checked
      cases shape : db.shape? with
      | none => simp [shape, checkUpsert] at checked
      | some s => cases s <;> simp_all [checkUpsert]
  obtain rfl := Except.ok.inj ((rows_of_keyed keyed time key value).symm.trans written)
  have rows := rows_upsertRow keyed (storedRow key value time)
  exact {
    keyed
    rows
    own := fun distinct => by
      rw [rows]
      exact filter_upsertRow_eq distinct (storedRow key value time)
    others := by
      rw [rows]
      exact filter_upsertRow_ne (storedRow key value time) db.rows
    declaration := by rw [Database.declaration, shape?_setRows]; rfl
    logged := rfl }

theorem set_stored (serves : Serves slot db e)
    (done : (set time slot key value e).result = .ok ()) :
    ∃ changed, db.upsert key value.toText time = .ok changed ∧
      Sees slot changed (set time slot key value e).state ∧
      Holding slot True (set time slot key value e).state := by
  obtain ⟨result, state⟩ := set_outcome time slot key value e
  rw [result] at done
  rw [state]
  rcases ofAttempt_ends (execute_serves serves checkUpsert (·.upsert key value.toText time)) with
    ⟨_, -, changed, written, ⟨sound, c, open_, settled, -⟩, sees⟩ | ⟨error, failed⟩
  · exact ⟨changed, written, sees, sound, c, open_, fun _ => settled⟩
  · cases failed.symm.trans done

theorem set_reasons {error : Error} (failed : (set time slot key value e).result = .error error) :
    (∃ o, error = .database (.obstacle o)) ∨
      ∃ shape refusal, checkUpsert shape = .error refusal ∧ error = .database refusal := by
  have reasons : FailsBy (fun error => (∃ o, error = .obstacle o) ∨
      ∃ shape, checkUpsert shape = .error error)
      (execute slot checkUpsert (·.upsert key value.toText time)) := by
    refine failsBy_execute (fun o => .inl ⟨o, rfl⟩) (fun shape error refused => ?_)
      (fun db error refused => ?_) slot
    · have retold : error.retold = error := by
        simpa [refused, Except.mapError] using retold_upsert shape
      rw [retold]
      exact ⟨.inr ⟨shape, refused⟩, .inr ⟨shape, refused⟩⟩
    · unfold Database.upsert at refused
      split at refused
      · exact .inr ⟨db.shape?, by rwa [← Except.error.inj refused]⟩
      · cases refused
  have faults := reasons e
  rw [(set_outcome time slot key value e).1, result_ofAttempt] at failed
  cases came : ((execute slot checkUpsert (·.upsert key value.toText time)).on e).1 with
  | ok => simp [came, Except.mapError] at failed
  | error refusal =>
    obtain rfl : Error.database refusal = error := by simpa [came, Except.mapError] using failed
    rcases faults refusal came with ⟨o, rfl⟩ | ⟨shape, refused⟩
    · exact .inl ⟨o, rfl⟩
    · exact .inr ⟨shape, refusal, refused, rfl⟩

theorem allOrNothing (held : Holding slot True e) : AllOrNothing slot e where
  stores {time key value} done := by
    obtain ⟨c, open_, settled⟩ := held.connection
    cases seen : e.seen c with
    | ok db =>
      have sees : Sees slot db e := ⟨c, open_, seen⟩
      obtain ⟨changed, written, now, still⟩ := set_stored (sees.serves held) done
      exact ⟨db, changed, sees, now, replaced_of_upsert written, still⟩
    | error error =>
      -- A connection that sees no database might as well see an empty one, which takes no row.
      have serves : Serves slot .empty e := ⟨held.sound, c, open_, settled trivial, fun db' again =>
        by cases seen.symm.trans again⟩
      obtain ⟨changed, written, -⟩ := set_stored serves done
      cases written
  fails {time key value error} failed := by
    obtain ⟨result, state⟩ := set_outcome time slot key value e
    rw [result] at failed
    rw [state]
    exact untouched_of_undisturbed (state_of_failed (execute_spares held _ _) failed)
      (fun db serves => state_of_failed (execute_serves serves _ _) failed) held
  reasons := set_reasons
  blind time time' key key' value value' := by
    have alike (db : Database) : (db.upsert key value.toText time).map (fun _ => ()) =
        (db.upsert key' value'.toText time').map fun _ => () := by
      unfold Database.upsert
      cases checkUpsert db.shape? <;> rfl
    rw [(set_outcome time slot key value e).1, (set_outcome time' slot key' value' e).1,
      result_ofAttempt, result_ofAttempt, execute_blind slot checkUpsert alike e]
  get key := by
    rw [state_get]
    exact untouched_of_undisturbed (state_ofAttempt (spares_query _ _ e held))
      (fun db serves =>
        state_ofAttempt ((query_serves serves _ _).mono_post fun _ _ => And.right)) held
  updatedAt key :=
    untouched_of_undisturbed (state_ofAttempt (spares_query _ _ e held))
      (fun db serves =>
        state_ofAttempt ((query_serves serves _ _).mono_post fun _ _ => And.right)) held
  adopt {db} sees declared := by
    have serves := sees.serves held
    obtain ⟨undisturbed, still⟩ : Engine.Undisturbed slot e ((Engine.adopt slot).on e).2 ∧
        Serves slot db ((Engine.adopt slot).on e).2 :=
      (adopt_spares held serves (by simpa [shape?] using declared)).behind
    refine untouched_of_undisturbed undisturbed (fun other served => ?_) held
    obtain ⟨c, open_, seen⟩ := sees
    obtain ⟨c', open', -, sees'⟩ := served.connection
    obtain rfl := Option.some.inj (open_.symm.trans open')
    exact sees' db seen ▸ still

/-- Opening a store leaves a relation as it was found at the first look, once the directories above
the database are made. -/
theorem openPath_keeps (sound : e.Sound) (done : (openPath path e).result = .ok slot) :
    ∃ db, firstLook path (withDirectories path e) = .ok db ∧
      (db.shape?.isSome → ∃ logged, Sees slot { db with logged } (openPath path e).state) := by
  obtain ⟨connected, state⟩ := openPath_of_ok done
  rw [state]
  exact connect_ends (fun slot after => ∃ db, firstLook path (withDirectories path e) = .ok db ∧
    (db.shape?.isSome → ∃ logged, Sees slot { db with logged } after))
    (connectAnd_keeps (sound_withDirectories sound path) path) connected

/-! ## What a set depends on -/

/-- The connection last learnt of a relation in which no row can be replaced: a table without a key,
or a view. -/
def Discouraged (c : Connection) : Prop :=
  ∃ d, c.known = some d ∧ (d.shape = some .unkeyed ∨ d.shape = some .view)

/-- Whether a set succeeds is told by the shape, by what the connection last learnt of it and by
whether the connection may write. What discourages a store stays until it reads. -/
structure Decided (slot : Nat) (c : Connection) (db : Database) (e : Engine) : Prop where
  succeeds : ∀ time key value, (set time slot key value e).result = .ok () ↔
    db.shape? = some .keyed ∧ verdictOn c = .ok () ∧ ¬Discouraged c
  reason : verdictOn c = .ok () → ¬Discouraged c → ∀ time key value,
    (set time slot key value e).result = (checkUpsert db.shape?).mapError .database
  lasts : Discouraged c → ∀ time key value, (set time slot key value e).state = e
  afterGet : ∀ time key value other,
    (set time slot key value (get slot other e).state).result = .ok () ↔
      db.shape? = some .keyed ∧ verdictOn c = .ok ()
  afterStamp : ∀ time key value other,
    (set time slot key value (updatedAt slot other e).state).result = .ok () ↔
      db.shape? = some .keyed ∧ verdictOn c = .ok ()

section Deciding

variable {known : Option Declaration}

theorem checkUpsert_eq_ok {shape : Option Shape} :
    checkUpsert shape = .ok () ↔ shape = some .keyed := by
  cases shape with
  | none => simp [checkUpsert]
  | some s => cases s <;> simp [checkUpsert]

/-- What makes a statement that writes fail is what it asks for, or that nothing may be written. -/
theorem set_eq_ok_iff (h : Attending slot c known db e) :
    (set time slot key value e).result = .ok () ↔
      understood (known.getD db.declaration) db checkUpsert = .ok () ∧ verdictOn c = .ok () := by
  have consulting := consulting_attending slot c true
  rw [(set_outcome time slot key value e).1, result_ofAttempt]
  cases understands : understood (known.getD db.declaration) db checkUpsert with
  | error error =>
    obtain ⟨_, after, failed, -⟩ :=
      (consulting.execute_fails h (·.upsert key value.toText time) understands).fails
    simp [failed, Except.mapError]
  | ok =>
    have keyed := checkUpsert_eq_ok.mp (check_of_understood h.informed retold_upsert understands)
    have outcome : (execute slot checkUpsert (·.upsert key value.toText time)).ComesUnless
        (true = true ∧ verdictOn c ≠ .ok ()) e (verdictOn c) fun _ => True := by
      refine consulting.execute_comes h understands (rows_of_keyed keyed time key value)
        fun after consulted => ?_
      obtain ⟨known', ⟨⟨cached, attends⟩, -⟩, -⟩ := consulted
      cases judged : verdictOn c with
      | ok => exact .inl ((attends.commit_comes judged _).mono fun _ _ => trivial)
      | error error =>
        exact .inl ((commit_of_refused attends.sound attends.connection judged _ _).mono
          fun _ _ => trivial)
    cases judged : verdictOn c with
    | ok =>
      rw [judged] at outcome
      obtain ⟨after, done, -⟩ := outcome.resolve_right (by simp)
      simp [done, Except.mapError]
    | error error =>
      rw [judged] at outcome
      obtain ⟨_, after, failed, -⟩ := outcome.fails
      simp [failed, Except.mapError]

theorem discouraged_iff : Discouraged c ↔ ∃ d, c.known = some d ∧ Dismissed d checkUpsert := by
  simp only [Discouraged, dismissed_upsert]

/-- Whoever is not discouraged goes by the present shape. -/
theorem understood_upsert (informed : Informed db c.known) (heard : ¬Discouraged c) :
    understood (c.known.getD db.declaration) db checkUpsert = checkUpsert db.shape? :=
  understood_of_not_dismissed informed
    (fun d told dismissed => heard (discouraged_iff.mpr ⟨d, told, dismissed⟩)) retold_upsert

/-- A store that is discouraged does not look at the database. -/
theorem execute_of_discouraged (h : Attends slot c db e) (discouraged : Discouraged c)
    (write : Database → Except Database.Error Database) :
    ∃ error, understood (c.known.getD db.declaration) db checkUpsert = .error error ∧
      (execute slot checkUpsert write).Comes e (.error error) (· = e) := by
  obtain ⟨d, told, error, checked, final⟩ := discouraged_iff.mp discouraged
  refine ⟨error, by rw [told, Option.getD_some, understood_of_dismissed checked final], ?_⟩
  have knows : (declaration slot).Comes e (.ok d) (· = e) := by
    refine (Attempt.comes_connection h.connection).bind ?_
    rintro _ rfl
    rw [told]
    exact Attempt.comes_pure rfl
  have dismissed : (prepare slot true checkUpsert).Comes e (.error error) (· = e) := by
    refine knows.bind ?_
    rintro _ rfl
    simp only [checked, final]
    exact ⟨_, rfl, rfl⟩
  exact dismissed.bind_error

/-- A question about rows makes the connection look again. -/
theorem set_after_query {α : Type} {check : Check} (h : Attending slot c known db e)
    (asks : check = checkValue ∨ check = checkStamp)
    (read : Database → Except Database.Error α) :
    (set time slot key value (ofAttempt (query slot check read) e).state).result = .ok () ↔
      db.shape? = some .keyed ∧ verdictOn c = .ok () := by
  have queried := ((consulting_attending slot c false).query_comes h check read).resolve_right
    (by simp)
  obtain ⟨known', still, learnt⟩ := (ofAttempt_comes queried).2
  have current : UpToDate db known' := fun d told =>
    (learnt d told).resolve_right fun stale => not_dismissed_of_asks asks stale.2
  rw [set_eq_ok_iff still, understood_of_upToDate still.informed current, checkUpsert_eq_ok]

theorem decided (attends : Attends slot c db e) (informed : Informed db c.known)
    (sharing : c.sharing = true → c.known = none) : Decided slot c db e := by
  have attending : Attending slot c c.known db e := ⟨⟨c.cached, attends⟩, informed, sharing⟩
  refine ⟨fun time key value => ?succeeds, fun permitted heard time key value => ?reason,
    fun discouraged time key value => ?lasts, fun time key value other => ?afterGet,
    fun time key value other => set_after_query attending (.inr rfl) _⟩
  case succeeds =>
    rw [set_eq_ok_iff attending]
    by_cases discouraged : Discouraged c
    · obtain ⟨error, refused, -⟩ := execute_of_discouraged attends discouraged .ok
      simp [refused, discouraged]
    · rw [understood_upsert informed discouraged, checkUpsert_eq_ok]
      simp [discouraged]
  case reason =>
    have understands := understood_upsert informed heard
    cases checked : checkUpsert db.shape? with
    | ok =>
      rw [checked] at understands
      exact (set_eq_ok_iff attending).mpr ⟨understands, permitted⟩
    | error error =>
      rw [checked] at understands
      have failed := ((consulting_attending slot c true).execute_fails attending
        (·.upsert key value.toText time) understands).resolve_right (by simp [permitted])
      rw [(set_outcome time slot key value e).1]
      exact (ofAttempt_comes failed).1
  case lasts =>
    obtain ⟨error, -, failed⟩ := execute_of_discouraged attends discouraged
      (·.upsert key value.toText time)
    rw [(set_outcome time slot key value e).2]
    exact (ofAttempt_comes failed).2
  case afterGet =>
    rw [state_get]
    exact set_after_query attending (.inl rfl) _

end Deciding

/-! ## In company -/

/-- What is done with a database while a store has it open, by stores and by another program. -/
inductive Deed where
  | opening (process : Nat)
  | closing (slot : Nat)
  | get (slot : Nat) (key : String)
  | updatedAt (slot : Nat) (key : String)
  | set (time : Int) (slot : Nat) (key : String) (value : Json)
  | tampering (process : Nat) (what : Session.Tampering)

namespace Deed

def perform (path : Path) (e : Engine) : Deed → Engine
  | .opening process => (openPath path { e with process }).state
  | .closing slot => e.close slot
  | .get slot key => (DatabaseFile.get slot key e).state
  | .updatedAt slot key => (DatabaseFile.updatedAt slot key e).state
  | .set time slot key value => (DatabaseFile.set time slot key value e).state
  | .tampering process what => ((visit path what.perform).on { e with process }).2

/-- The deed does not close the store in a slot. -/
def Leaves (slot : Nat) : Deed → Prop
  | .closing other => other ≠ slot
  | _ => True

/-- What a deed may make of a database. -/
def Makes (db changed : Database) : Deed → Prop
  | .opening _ => changed = db.declare
  | .closing _ | .get _ _ | .updatedAt _ _ => changed = db
  | .set time _ key value => changed = db ∨ Replaced (storedRow key value time) db changed
  | .tampering _ what => what.apply db = .ok changed ∨ changed = db

/-- What deeds may make of a database, one after the other. -/
inductive Lead : List Deed → Database → Database → Prop where
  | done (db : Database) : Lead [] db db
  | step {deed : Deed} {deeds : List Deed} {db mid last : Database} (made : deed.Makes db mid)
    (rest : Lead deeds mid last) : Lead (deed :: deeds) db last

end Deed

/-- A store in a slot has the database at a path open, alone or in company. -/
def InUse (path : Path) (slot : Nat) (db : Database) (e : Engine) : Prop :=
  ∃ base at_ f, Site path at_ base ∧ Company base at_ f slot db e

theorem informed_of_tampering {what : Session.Tampering} (applied : what.apply db = .ok changed) :
    changed.logged = db.logged ∧ ∀ known, Informed db known → Informed changed known := by
  have redeclared (relation : Option Relation) : (db.redeclare relation).logged = db.logged ∧
      ∀ known, Informed db known → Informed (db.redeclare relation) known :=
    ⟨rfl, fun _ informed => informed.redeclare relation⟩
  have rewritten (rows : List Row) : (db.setRows rows).logged = db.logged ∧
      ∀ known, Informed db known → Informed (db.setRows rows) known :=
    ⟨rfl, fun _ informed => informed.setRows rows⟩
  cases what with
  | drop =>
    simp only [Session.Tampering.apply, drop] at applied
    split at applied <;> cases applied
    exact redeclared none
  | create shape =>
    simp only [Session.Tampering.apply, create] at applied
    split at applied <;> cases applied
    exact redeclared _
  | put key value stamp =>
    simp only [Session.Tampering.apply, put] at applied
    split at applied
    · cases applied
    split at applied
    · cases applied
    · cases applied
    · split_ifs at applied
      cases applied
      exact rewritten _
    · cases applied
      exact rewritten _

theorem tampering_comes {base : FileSystem} {at_ : Location} {f : Files}
    (h : Company base at_ f slot db e) (site : Site path at_ base) (what : Session.Tampering) :
    ∃ result changed, (what.apply db = .ok changed ∨ changed = db) ∧
      (visit path what.perform).Comes e result (Company base at_ f slot changed) := by
  cases applied : what.apply db with
  | error refusal =>
    refine ⟨.ok (.error refusal), db, .inr rfl, h.visits site fun new mid sound attended => ?_⟩
    obtain ⟨c, open_⟩ := attended.opened new (.inl rfl)
    have ready : mid.Sound ∧ Attended base at_ f (insert new {slot}) Informed db mid :=
      ⟨sound, attended⟩
    simp only [applied]
    cases refusal with
    | nullValue =>
      refine (attended.requireWritable_comes open_).bind ?_
      rintro _ rfl
      exact Attempt.comes_pure ready
    | alreadyThere | viewIsNoTable | statement => exact Attempt.comes_pure ready
  | ok changed =>
    obtain ⟨logged, keeps⟩ := informed_of_tampering applied
    refine ⟨.ok (.ok ()), changed, .inl rfl, h.visits site fun new mid sound attended => ?_⟩
    obtain ⟨c, open_⟩ := attended.opened new (.inl rfl)
    have commits := (attended.commit_comes open_ (logged.trans attended.files.asks) keeps).and_ends
      (commit_holding sound open_ db changed)
    simp only [applied, map_eq_pure_bind]
    exact commits.bind fun after ⟨still, held, _⟩ => Attempt.comes_pure ⟨held.sound, still⟩

theorem InUse.step (h : InUse path slot db e) (deed : Deed) (leaves : deed.Leaves slot) :
    ∃ changed, deed.Makes db changed ∧ InUse path slot changed (deed.perform path e) := by
  obtain ⟨base, at_, f, site, company⟩ := h
  cases deed with
  | opening process =>
    have ready := company.forProcess process
    have makes := site.makeDirectories ready.attended.files.varies
    obtain ⟨new, -, opens⟩ := ready.opens site
    obtain ⟨-, still, -⟩ := openPath_of_connectAnd makes opens
    exact ⟨_, rfl, base, at_, f, site, still⟩
  | closing other => exact ⟨db, rfl, base, at_, f, site, company.closes site leaves⟩
  | get other key =>
    obtain ⟨result, queried⟩ := company.query_comes other checkValue (·.value? key)
    refine ⟨db, rfl, base, at_, f, site, ?_⟩
    show Company base at_ f slot db (DatabaseFile.get other key e).state
    rw [state_get]
    exact (ofAttempt_comes queried).2
  | updatedAt other key =>
    obtain ⟨result, queried⟩ := company.query_comes other checkStamp (·.updatedAt? key)
    exact ⟨db, rfl, base, at_, f, site, (ofAttempt_comes queried).2⟩
  | set time other key value =>
    have writes (checked : checkUpsert db.shape? = .ok ()) : ∃ changed,
        db.upsert key value.toText time = .ok changed ∧ changed.logged = true ∧
          ∀ known, Informed db known → Informed changed known :=
      ⟨_, rows_of_keyed (checkUpsert_eq_ok.mp checked) time key value, company.attended.files.asks,
        fun known informed => informed.setRows _⟩
    obtain ⟨result, changed, made, executed⟩ := company.execute_comes other
      (·.upsert key value.toText time) retold_upsert writes
    refine ⟨changed, made.imp_right replaced_of_upsert, base, at_, f, site, ?_⟩
    show Company base at_ f slot changed (DatabaseFile.set time other key value e).state
    rw [(set_outcome time other key value e).2]
    exact (ofAttempt_comes executed).2
  | tampering process what =>
    obtain ⟨result, changed, made, after, ended, still⟩ :=
      tampering_comes (company.forProcess process) site what
    refine ⟨changed, made, base, at_, f, site, ?_⟩
    show Company base at_ f slot changed ((visit path what.perform).on { e with process }).2
    rw [ended]
    exact still

theorem InUse.run (h : InUse path slot db e) (deeds : List Deed)
    (leaves : ∀ deed ∈ deeds, deed.Leaves slot) :
    ∃ changed, Deed.Lead deeds db changed ∧
      InUse path slot changed (deeds.foldl (Deed.perform path) e) := by
  induction deeds generalizing db e with
  | nil => exact ⟨db, .done db, h⟩
  | cons deed deeds ih =>
    obtain ⟨own, rest⟩ := List.forall_mem_cons.mp leaves
    obtain ⟨mid, made, still⟩ := h.step deed own
    obtain ⟨changed, lead, used⟩ := ih still rest
    exact ⟨changed, .step made lead, used⟩

/-- Opening a store on a database that nobody uses. -/
theorem AtRest.inUse (h : AtRest path db e) (sound : e.Sound) : ∃ slot,
    (openPath path e).result = .ok slot ∧ InUse path slot db.prepared (openPath path e).state := by
  obtain ⟨base, at_, slot, site, -, opened, kept⟩ := h.opens
  obtain ⟨-, f, shared⟩ := kept.shares rfl
  exact ⟨slot, opened, base, at_, f, site, (openPath_holding sound path opened).sound,
    (shared_iff.mp shared).weaken fun _ => Known.informed⟩

namespace InUse

theorem own (h : InUse path slot db e) : ∃ c, e.connection? slot = some c := by
  obtain ⟨_, _, _, -, company⟩ := h
  exact company.own

/-- Whoever has the database open sees it, and knows no more of it than there is. -/
theorem attends {other : Nat} (h : InUse path slot db e) (open_ : e.connection? other = some c) :
    AllOrNothing other e ∧ Sees other db e ∧ Decided other c db e := by
  obtain ⟨base, at_, f, -, company⟩ := h
  obtain ⟨attends, own, informed⟩ := company.attends open_
  exact ⟨allOrNothing (company.holding open_), ⟨c, open_, attends.seen⟩,
    decided attends informed (by simp [own])⟩

theorem opens (h : InUse path slot db e) (declared : db.shape?.isSome) : ∃ new ≠ slot,
    (openPath path e).result = .ok new ∧ InUse path slot db (openPath path e).state ∧
      Sees new db (openPath path e).state := by
  obtain ⟨base, at_, f, site, company⟩ := h
  obtain ⟨new, ne, opens⟩ := company.opens site
  rw [declare_of_some (by simpa [shape?] using declared)] at opens
  obtain ⟨opened, still, c, open_⟩ :=
    openPath_of_connectAnd (site.makeDirectories company.attended.files.varies) opens
  exact ⟨new, ne, opened, ⟨base, at_, f, site, still⟩, c, open_, (still.attends open_).1.seen⟩

theorem reopens (h : InUse path slot db e) (declared : db.shape?.isSome) : ∃ new,
    (openPath path (e.close slot)).result = .ok new ∧
      InUse path new db (openPath path (e.close slot)).state := by
  obtain ⟨base, at_, f, site, company⟩ := h
  obtain ⟨varies, new, f', opens⟩ := company.reopens site declared
  obtain ⟨opened, still⟩ := openPath_of_connectAnd (site.makeDirectories varies) opens
  exact ⟨new, opened, base, at_, f', site, still⟩

end InUse

/-! ## Sets on any shape -/

/-- Through any connection of a store a set replaces the row of its key and nothing else, or fails
and leaves everything as it was; only an obstacle below the database or a shape makes it fail, and
not what is to be stored. Reading changes nothing. Where nothing is left to be settled, a set
succeeds just if the relation is the store's own table, the connection may write and has not last
learnt of a table without a key or of a view; when it has read, only the shape counts. Opening a
store leaves a relation of whatever shape as it was found; where the database is at rest or in use,
opening succeeds, and so does opening it anew. All that holds on and on, whatever is done by stores
and by other programs as long as the store stays open. -/
theorem set_on_any_shape :
    (∀ e slot, Opened slot e → Holding slot True e) ∧
    (∀ e slot, Holding slot True e → AllOrNothing slot e) ∧
    (∀ path e slot, e.Sound → (openPath path e).result = .ok slot →
      ∃ db, firstLook path (withDirectories path e) = .ok db ∧
        (db.shape?.isSome → ∃ logged, Sees slot { db with logged } (openPath path e).state)) ∧
    (∀ e slot c db, Attends slot c db e → Informed db c.known →
      (c.sharing = true → c.known = none) →
      Decided slot c db e) ∧
    (∀ path db e, AtRest path db e → e.Sound → db.shape?.isSome → ∃ slot,
      (openPath path e).result = .ok slot ∧
        InUse path slot { db with logged := true } (openPath path e).state) ∧
    ∀ path slot db e, InUse path slot db e →
      (∃ c, e.connection? slot = some c) ∧
      (∀ other c, e.connection? other = some c →
        AllOrNothing other e ∧ Sees other db e ∧ Decided other c db e) ∧
      (db.shape?.isSome →
        (∃ new ≠ slot, (openPath path e).result = .ok new ∧
          InUse path slot db (openPath path e).state ∧ Sees new db (openPath path e).state) ∧
        ∃ new, (openPath path (e.close slot)).result = .ok new ∧
          InUse path new db (openPath path (e.close slot)).state) ∧
      ∀ deeds : List Deed, (∀ deed ∈ deeds, deed.Leaves slot) →
        ∃ changed, Deed.Lead deeds db changed ∧
          InUse path slot changed (deeds.foldl (Deed.perform path) e) := by
  refine ⟨fun e slot => Opened.holding, fun e slot => allOrNothing,
    fun path e slot => openPath_keeps, fun e slot c db => decided,
    fun path db e rests sound declared => ?_, fun path slot db e used => ⟨used.own,
      fun other c => used.attends, fun declared => ⟨used.opens declared, used.reopens declared⟩,
      used.run⟩⟩
  have opened := rests.inUse sound
  rwa [prepared_of_declared declared] at opened

/-- A store is opened on a table without a key, in which it cannot set anything. -/
theorem sets_on_unkeyed_table :
    let at_ : Location := [bytesOf "s.db"]
    let db (shape : Shape) : Database :=
      ⟨some ⟨shape, [⟨"k", .text (bytesOf "1"), .integer 5⟩]⟩, 1, true⟩
    let e := Engine.onFiles
      ⟨[(at_, .file 0)], [⟨.database (db .unkeyed), FileSystem.privateMode⟩], []⟩
    let memory := Engine.inMemory (db .keyed)
    (Holding 0 True memory ∧ AllOrNothing 0 memory) ∧
    (∃ c, Attends 0 c (db .keyed) memory ∧ Decided 0 c (db .keyed) memory ∧
      ∀ time key value, (set time 0 key value memory).result = .ok ()) ∧
    AtRest at_.path (db .unkeyed) e ∧ e.Sound ∧
    ∃ slot, (openPath at_.path e).result = .ok slot ∧
      let opened := (openPath at_.path e).state
      let deeds : List Deed := [.tampering 1 .drop, .opening 2, .set 7 slot "k" .null,
        .get slot "k", .set 8 slot "k" .null]
      Holding slot True opened ∧ AllOrNothing slot opened ∧
      (∃ logged, Sees slot { db .unkeyed with logged } opened) ∧
      InUse at_.path slot (db .unkeyed) opened ∧
      (∀ time key value, (set time slot key value opened).result ≠ .ok ()) ∧
      ∃ changed, Deed.Lead deeds (db .unkeyed) changed ∧
        InUse at_.path slot changed (deeds.foldl (Deed.perform at_.path) opened) := by
  intro at_ db e memory
  obtain ⟨holds, all, finds, decides, opens, uses⟩ := set_on_any_shape
  have works : Works 0 (.ok ()) (db .keyed) memory := works_inMemory rfl
  have holding : Holding 0 True memory := ⟨works.sound, _, rfl, fun _ => .inr rfl⟩
  have decided : ∃ c, Attends 0 c (db .keyed) memory ∧ Decided 0 c (db .keyed) memory ∧
      ∀ time key value, (set time 0 key value memory).result = .ok () := by
    obtain ⟨c, attends, able, judged⟩ := works.attends
    obtain rfl := Option.some.inj (Eq.trans (by rfl) attends.connection)
    have decided := decides memory 0 _ _ attends nofun nofun
    exact ⟨_, attends, decided, fun time key value =>
      (decided.succeeds time key value).mpr ⟨rfl, rfl, nofun⟩⟩
  have spot : e.files.Spot at_ := {
    ne_nil := nofun
    usable := by
      intro name there
      obtain rfl : name = bytesOf "s.db" := by simpa [at_] using there
      exact ⟨⟨by decide, by decide, by decide, by decide⟩, ⟨by decide, by decide⟩, by decide⟩
    directories := fun above front ne => by
      have few : above = [] ∨ above = at_ := by
        simpa [at_, List.prefix_cons_iff] using front
      rcases few with rfl | rfl
      · rfl
      · exact absurd rfl ne
    short := by decide }
  have rests : AtRest at_.path (db .unkeyed) e :=
    atRest_of_file spot (n := 0) (by decide) (by decide) rfl (by decide) rfl (by decide)
      fun _ => rfl
  have sound : e.Sound := sound_onFiles fun _ _ there => by
    obtain ⟨-, rfl⟩ : _ = at_ ∧ _ = 0 := by simpa [e, onFiles] using there
    exact Nat.zero_lt_one
  obtain ⟨slot, opened, used⟩ := opens _ _ _ rests sound rfl
  obtain ⟨⟨c, open_⟩, sees, -, runs⟩ := uses _ _ _ _ used
  have held := holds _ _ (.atPath sound at_.path opened)
  have looked : firstLook at_.path (withDirectories at_.path e) = .ok (db .unkeyed) := by
    decide +kernel
  obtain ⟨found, first, kept⟩ := finds at_.path e slot sound opened
  obtain rfl := Except.ok.inj (looked.symm.trans first)
  refine ⟨⟨holding, all _ _ holding⟩, decided, rests, sound, slot, opened, held, all _ _ held,
    kept rfl, used, fun time key value done => ?_, runs _ ?_⟩
  · obtain ⟨keyed, -⟩ := ((sees slot c open_).2.2.succeeds time key value).mp done
    cases keyed
  · simp [Deed.Leaves]

/-- Three stores have one table with a key open, and only one of them can set anything: the first
learnt of a table without a key, which has been dropped since, and the last is for reading only. -/
theorem sets_differ_on_one_relation :
    let path : Path := bytesOf "s.db"
    let stored := Engine.onFiles ⟨[([path], .file 0)],
      [⟨.database ⟨some ⟨.unkeyed, []⟩, 1, true⟩, FileSystem.privateMode⟩], []⟩
    let first := (openPath path stored).state
    let second := (openPath path (Deed.perform path first (.tampering 0 .drop))).state
    let e := (openPath (bytesOf "file:s.db?mode=ro") second).state
    let set (slot : Nat) := (set 7 slot "k" .null e).result.mapError Error.message
    (∀ slot ∈ [0, 2, 3], Sees slot ⟨some ⟨.keyed, []⟩, 3, true⟩ e) ∧
      set 0 = .error
        "Database error: ON CONFLICT clause does not match any PRIMARY KEY or UNIQUE constraint" ∧
      set 2 = .ok () ∧ set 3 = .error "Database error: attempt to write a readonly database" := by
  decide +kernel

end CobolDialects.Settings.DatabaseFile
