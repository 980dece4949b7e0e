import CobolDialects.Proofs.Engine.Statement

/-!
# Understanding statements

What a statement comes to is told by the declaration and the rows of the database, and by what its
connection last learnt of the declaration, as long as nothing below the database fails. A connection
that knows of an earlier declaration notices that when it looks at the database. It does not look if
what it knows of rules the statement out for good.
-/

namespace CobolDialects

open Database Attempt

/-! ## What attempts come to -/

namespace Attempt

variable {α β : Type} {a : Attempt α} {f : α → Attempt β} {e : Engine} {c : Connection} {slot : Nat}
  {post post' : α → Engine → Prop} {lost lost' : Engine → Prop} {holds : Engine → Prop}

/-- On an engine the attempt comes to a result, and leaves an engine of which something holds. -/
def Comes (a : Attempt α) (e : Engine) (result : Except Error α) (holds : Engine → Prop) : Prop :=
  ∃ after, a.on e = (result, after) ∧ holds after

theorem Ends.comes (h : a.Ends e post fun _ => False) : ∃ x, a.Comes e (.ok x) (post x) := by
  unfold Ends at h
  split at h
  · rename_i x after ended
    exact ⟨x, after, ended, h⟩
  · exact h.elim

theorem Comes.mono {result : Except Error α} {holds' : Engine → Prop} (h : a.Comes e result holds)
    (le : ∀ after, holds after → holds' after) : a.Comes e result holds' :=
  h.imp fun after ended => ⟨ended.1, le after ended.2⟩

theorem Comes.and_ends {result : Except Error α} (h : a.Comes e result holds)
    (h' : a.Ends e post lost) :
    a.Comes e result fun after => holds after ∧
      match result with
      | .ok x => post x after
      | .error _ => lost after := by
  obtain ⟨after, ended, kept⟩ := h
  unfold Ends at h'
  rw [ended] at h'
  exact ⟨after, ended, kept, by cases result <;> exact h'⟩

theorem comes_pure {x : α} (h : holds e) : (pure x : Attempt α).Comes e (.ok x) holds := ⟨e, rfl, h⟩

theorem comes_get : (get : Attempt Engine).Comes e (.ok e) (· = e) := ⟨e, rfl, rfl⟩

theorem comes_refuse {o : Obstacle} (h : holds e) :
    (refuse o : Attempt α).Comes e (.error (.obstacle o)) holds := ⟨e, rfl, h⟩

theorem comes_ofExcept {result : Except Error α} (h : holds e) :
    (MonadExcept.ofExcept result : Attempt α).Comes e result holds :=
  ⟨e, by cases result <;> rfl, h⟩

theorem comes_connection (open_ : e.connection? slot = some c) :
    (connection slot).Comes e (.ok c) (· = e) := by
  refine ⟨e, ?_, rfl⟩
  have got : (get : Attempt Engine).on e = (.ok e, e) := rfl
  rw [connection, on_bind, got]
  simp only [open_]
  rfl

theorem Comes.bind {x : α} {mid : Engine → Prop} {result : Except Error β}
    (h : a.Comes e (.ok x) mid) (next : ∀ after, mid after → (f x).Comes after result holds) :
    (a >>= f).Comes e result holds := by
  obtain ⟨after, ended, kept⟩ := h
  obtain ⟨last, done, still⟩ := next after kept
  exact ⟨last, by rw [on_bind, ended]; exact done, still⟩

/-- A failure that is observed is a result. -/
theorem Comes.observe {result : Except Error α} (h : a.Comes e result holds) :
    a.observe.Comes e (.ok result) holds := by
  obtain ⟨after, ended, kept⟩ := h
  refine ⟨after, ?_, kept⟩
  show (Except.ok (a.on e).1, (a.on e).2) = _
  rw [ended]

theorem Comes.bind_error {error : Error} (h : a.Comes e (.error error) holds) :
    (a >>= f).Comes e (.error error) holds := by
  obtain ⟨after, ended, kept⟩ := h
  exact ⟨after, by rw [on_bind, ended], kept⟩

/-! ### Attempts that may be barred -/

/-- On an engine the attempt comes to a result, or it is barred and fails. -/
def ComesUnless (barred : Prop) (a : Attempt α) (e : Engine) (result : Except Error α)
    (holds : Engine → Prop) : Prop :=
  a.Comes e result holds ∨ barred ∧ ∃ error, a.Comes e (.error error) fun _ => True

variable {barred : Prop}

theorem ComesUnless.comes {result : Except Error α} (h : a.ComesUnless False e result holds) :
    a.Comes e result holds :=
  h.resolve_right fun absurd => absurd.1

/-- What fails or is barred fails. -/
theorem ComesUnless.fails {error : Error} (h : a.ComesUnless barred e (.error error) holds) :
    ∃ error', a.Comes e (.error error') fun _ => True :=
  h.elim (fun comes => ⟨error, comes.mono fun _ _ => trivial⟩) fun bars => bars.2

theorem ComesUnless.mono {result : Except Error α} {holds' : Engine → Prop}
    (h : a.ComesUnless barred e result holds) (le : ∀ after, holds after → holds' after) :
    a.ComesUnless barred e result holds' :=
  h.imp_left fun comes => comes.mono le

theorem ComesUnless.bind {x : α} {mid : Engine → Prop} {result : Except Error β}
    (h : a.ComesUnless barred e (.ok x) mid)
    (next : ∀ after, mid after → (f x).ComesUnless barred after result holds) :
    (a >>= f).ComesUnless barred e result holds := by
  rcases h with ⟨after, ended, kept⟩ | ⟨may, error, fails⟩
  · have comes : a.Comes e (.ok x) (· = after) := ⟨after, ended, rfl⟩
    rcases next after kept with done | ⟨may, error, fails⟩
    · exact .inl (comes.bind fun _ same => same ▸ done)
    · exact .inr ⟨may, error, comes.bind fun _ same => same ▸ fails⟩
  · exact .inr ⟨may, error, fails.bind_error⟩

theorem ComesUnless.bind_error {error : Error} (h : a.ComesUnless barred e (.error error) holds) :
    (a >>= f).ComesUnless barred e (.error error) holds := by
  rcases h with comes | ⟨may, other, fails⟩
  · exact .inl comes.bind_error
  · exact .inr ⟨may, other, fails.bind_error⟩

end Attempt

namespace Engine

variable {slot : Nat} {writing : Bool} {barred : Prop}
  {working : Option Declaration → Database → Engine → Prop} {known : Option Declaration}
  {d : Declaration} {db : Database} {e : Engine} {check : Check}

/-! ## What a connection knows -/

/-- Whatever a connection knows of the declaration it has learnt since this last changed. -/
def UpToDate (db : Database) (known : Option Declaration) : Prop :=
  ∀ d, known = some d → d.version = db.version

/-- What comes of a statement that asks something of the declaration, for a connection that last
learnt of another one. -/
def understood (d : Declaration) (db : Database) (check : Check) : Except Error Unit :=
  match check d.shape with
  | .ok () =>
    if db.version = d.version then .ok () else (check db.shape?).mapError Error.retold
  | .error error =>
    if error.isLack ∧ db.version ≠ d.version then check db.shape? else .error error

/-- Whether a statement is ruled out by what is known of the declaration, without a look at the
database. -/
def Dismissed (d : Declaration) (check : Check) : Prop :=
  ∃ error, check d.shape = .error error ∧ error.isLack = false

/-- A family of engines on which the connection in a slot, which knows something of the declaration,
sees a database. Reading it may be barred. -/
structure Consulting (slot : Nat) (writing : Bool) (barred : Prop)
    (working : Option Declaration → Database → Engine → Prop) : Prop where
  connection : ∀ {known db e}, working known db e →
    ∃ c, e.connection? slot = some c ∧ c.known = known
  view : ∀ {known db e}, working known db e →
    (view slot).ComesUnless barred e (.ok db) (working known db)
  learn : ∀ {known db e}, working known db e →
    ∃ learnt, UpToDate db learnt ∧ working learnt db (e.learned slot db.declaration)
  writable : ∀ {known db e}, writing = true → working known db e →
    (requireWritable slot).ComesUnless barred e (.ok ()) (working known db)

/-- Behind a statement the connection knows of the declaration as it is, unless the statement was
dismissed. -/
def Consulted (working : Option Declaration → Database → Engine → Prop) (d : Declaration)
    (db : Database) (check : Check) (e : Engine) : Prop :=
  ∃ known, working known db e ∧
    ∀ d', known = some d' → d'.version = db.version ∨ d' = d ∧ Dismissed d check

theorem Consulted.of_upToDate (works : working known db e) (current : UpToDate db known) :
    Consulted working d db check e :=
  ⟨known, works, fun d' same => .inl (current d' same)⟩

/-! ## Statements -/

namespace Consulting

section

variable (h : Consulting slot writing barred working)

include h

theorem learn_comes (works : working known db e) :
    (Engine.learn slot db.declaration).ComesUnless barred e (.ok ()) fun after =>
      ∃ learnt, UpToDate db learnt ∧ working learnt db after :=
  .inl ⟨_, rfl, h.learn works⟩

/-- What the statement goes by is what the connection knows, or else what it learns now. -/
theorem declaration_comes (works : working known db e) :
    (declaration slot).ComesUnless barred e (.ok (known.getD db.declaration)) fun after =>
      ∃ known', working known' db after ∧
        ∀ d, known' = some d → d = known.getD db.declaration ∨ d.version = db.version := by
  obtain ⟨c, open_, rfl⟩ := h.connection works
  have comes := comes_connection open_
  cases known : c.known with
  | some d =>
    refine .inl (comes.bind ?_)
    rintro _ rfl
    rw [known]
    refine comes_pure ⟨_, works, fun d' same => .inl ?_⟩
    exact (Option.some.inj (known.symm.trans same)).symm
  | none =>
    refine ComesUnless.bind (.inl comes) ?_
    rintro _ rfl
    rw [known]
    refine (h.view works).bind fun after still => ?_
    refine (h.learn_comes still).bind fun last ⟨learnt, current, able⟩ => ?_
    exact .inl (comes_pure ⟨learnt, able, fun d same => .inr (current d same)⟩)

theorem viewChecked_comes (works : working known db e)
    (heeds : ∀ d', known = some d' → d' = d ∨ d'.version = db.version)
    (checked : check d.shape = .ok ()) :
    (viewChecked slot d check).ComesUnless barred e ((understood d db check).map fun () => db)
      (Consulted working d db check) := by
  refine (h.view works).bind fun after still => ?_
  simp only [understood, checked]
  split_ifs with same
  · refine .inl (comes_pure ⟨known, still, fun d' there => .inl ?_⟩)
    rcases heeds d' there with rfl | current
    · exact same.symm
    · exact current
  · refine (h.learn_comes still).bind fun last ⟨learnt, current, able⟩ => ?_
    have consulted : Consulted working d db check last := .of_upToDate able current
    cases check db.shape? with
    | ok => exact .inl (comes_pure consulted)
    | error error => exact .inl ⟨_, rfl, consulted⟩

theorem recheck_comes (works : working known db e)
    (heeds : ∀ d', known = some d' → d' = d ∨ d'.version = db.version) {error : Error}
    (checked : check d.shape = .error error) (lack : error.isLack) :
    (recheck slot d check error).ComesUnless barred e (understood d db check)
      (Consulted working d db check) := by
  simp only [recheck, understood, checked, lack, true_and]
  rcases h.view works with viewed | ⟨may, other, fails⟩
  · refine ComesUnless.bind (.inl viewed.observe) fun after still => ?_
    simp only [ne_eq, ite_not]
    split_ifs with same
    · refine .inl ⟨_, rfl, known, still, fun d' there => .inl ?_⟩
      rcases heeds d' there with rfl | current
      · exact same.symm
      · exact current
    · refine (h.learn_comes still).bind ?_
      rintro last ⟨learnt, current, able⟩
      exact .inl (comes_ofExcept (.of_upToDate able current))
  · exact .inr ⟨may, error, fails.observe.bind fun _ _ => ⟨_, rfl, trivial⟩⟩

/-- What comes of a statement is told by what is known of the declaration, and by what it is. -/
theorem prepare_comes (works : working known db e) (check : Check) :
    (prepare slot writing check).ComesUnless barred e
      ((understood (known.getD db.declaration) db check).map fun () => db)
      (Consulted working (known.getD db.declaration) db check) := by
  refine (h.declaration_comes works).bind fun after ⟨known', still, heeds⟩ => ?_
  generalize known.getD db.declaration = d at heeds ⊢
  have ready : writing = true → (requireWritable slot).ComesUnless barred after (.ok ())
    (working known' db) := fun writes => h.writable writes still
  cases checked : check d.shape with
  | ok =>
    cases writing with
    | false => exact h.viewChecked_comes still heeds checked
    | true => exact (ready rfl).bind fun _ able => h.viewChecked_comes able heeds checked
  | error error =>
    cases lack : error.isLack with
    | false =>
      simp only [understood, checked, lack]
      exact .inl ⟨_, rfl, known', still, fun d' there =>
        (heeds d' there).symm.imp_right fun same => ⟨same, error, checked, lack⟩⟩
    | true =>
      simp only [lack]
      have rechecked := h.recheck_comes still heeds checked lack
      cases understands : understood d db check with
      | error refusal =>
        rw [understands] at rechecked
        exact rechecked.bind_error
      | ok =>
        rw [understands] at rechecked
        refine rechecked.bind fun mid ⟨learnt, able, current⟩ => ?_
        have looks (last : Engine) (still : working learnt db last) :
            (Engine.view slot).ComesUnless barred last (.ok db) (Consulted working d db check) :=
          (h.view still).mono fun _ viewed => ⟨learnt, viewed, current⟩
        cases writing with
        | false => exact looks mid able
        | true => exact (h.writable rfl able).bind looks

end

/-- A statement that reads gives what is in the database, if it is understood. -/
theorem query_comes {α : Type} (h : Consulting slot false barred working)
    (works : working known db e) (check : Check) (read : Database → Except Error α) :
    (query slot check read).ComesUnless barred e
      ((understood (known.getD db.declaration) db check).bind fun () => read db)
      (Consulted working (known.getD db.declaration) db check) := by
  have prepared := h.prepare_comes works check
  cases understands : understood (known.getD db.declaration) db check with
  | ok =>
    rw [understands] at prepared
    exact prepared.bind fun after consulted => .inl (comes_ofExcept consulted)
  | error error =>
    rw [understands] at prepared
    exact prepared.bind_error

section Writing

variable (h : Consulting slot true barred working) (works : working known db e)

include h works

theorem execute_fails (write : Database → Except Error Database) {error : Error}
    (refused : understood (known.getD db.declaration) db check = .error error) :
    (execute slot check write).ComesUnless barred e (.error error)
      (Consulted working (known.getD db.declaration) db check) := by
  have prepared := h.prepare_comes works check
  rw [refused] at prepared
  exact prepared.bind_error

/-- A statement that writes comes to what its change comes to, if it is understood. -/
theorem execute_comes {write : Database → Except Error Database} {changed : Database}
    {result : Except Error Unit} {holds : Engine → Prop}
    (understands : understood (known.getD db.declaration) db check = .ok ())
    (written : write db = .ok changed)
    (commits : ∀ after, Consulted working (known.getD db.declaration) db check after →
      (commit slot db changed).ComesUnless barred after result holds) :
    (execute slot check write).ComesUnless barred e result holds := by
  have prepared := h.prepare_comes works check
  rw [understands] at prepared
  refine prepared.bind fun after consulted => ?_
  have changes : (MonadExcept.ofExcept (write db) : Attempt Database).Comes after (.ok changed)
      (Consulted working (known.getD db.declaration) db check) := written ▸ comes_ofExcept consulted
  exact ComesUnless.bind (.inl changes) commits

end Writing

end Consulting

end Engine

end CobolDialects
