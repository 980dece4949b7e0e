import CobolDialects.Proofs.Engine.Opening

/-!
# Statements that change no file

Once its connection is settled, a statement that reads leaves all files as they are, whether it
succeeds or not, and whatever else uses them: the connection itself is all that changes, which
remembers what it has read. So does a statement that writes if it fails, and adopting the database
of a store once more.
-/

namespace CobolDialects.Engine

open Attempt Database

variable {e mid after last : Engine} {slot : Nat} {c : Connection}

/-- The connection in the slot is settled, all files hold what they held before, and all other
connections are as they were. -/
structure Undisturbed (slot : Nat) (e after : Engine) : Prop where
  held : Holding slot True after
  nodes : after.files.nodes = e.files.nodes
  others : ∀ other ≠ slot, after.connection? other = e.connection? other

theorem Undisturbed.refl (h : Holding slot True e) : Undisturbed slot e e :=
  ⟨h, rfl, fun _ _ => rfl⟩

theorem Undisturbed.trans (h : Undisturbed slot e mid) (h' : Undisturbed slot mid after) :
    Undisturbed slot e after :=
  ⟨h'.held, h'.nodes.trans h.nodes, fun other ne => (h'.others other ne).trans (h.others other ne)⟩

/-- Another connection sees what it has seen. -/
theorem Undisturbed.seen (h : Undisturbed slot e after) (c : Connection) :
    after.seen c = e.seen c := by
  have same : after.content = e.content := funext fun n => by
    rw [Engine.content, Engine.content, FileSystem.node?, FileSystem.node?, h.nodes]
  unfold Engine.seen besideLog throughLog reach
  rw [same]

/-- The attempt leaves all files as they are, whether it succeeds or not. -/
def Spares {α : Type} (slot : Nat) (a : Attempt α) : Prop :=
  ∀ e, Holding slot True e → a.Ends e (fun _ => Undisturbed slot e) (Undisturbed slot e)

/-! ## Steps -/

section Steps

variable {α β : Type} {a : Attempt α} {f : α → Attempt β}

theorem spares_pure (x : α) : Spares slot (pure x : Attempt α) := fun _ => .refl

theorem spares_throw (error : Error) : Spares slot (throw error : Attempt α) := fun _ => .refl

theorem spares_ofExcept (result : Except Error α) :
    Spares slot (MonadExcept.ofExcept result : Attempt α) := by
  cases result with
  | ok x => exact spares_pure x
  | error error => exact spares_throw error

theorem spares_connection : Spares slot (connection slot) := by
  intro e held
  obtain ⟨c, open_, -⟩ := held.connection
  simp only [ends_connection, open_]
  exact .refl held

theorem Spares.bind (h : Spares slot a) (next : ∀ x, Spares slot (f x)) :
    Spares slot (a >>= f) := by
  intro e held
  rw [ends_bind]
  refine (h e held).mono_post fun x mid spared => ?_
  exact (next x mid spared.held).mono (fun _ _ => spared.trans) fun _ => spared.trans

theorem Spares.observe (h : Spares slot a) : Spares slot a.observe := fun e held =>
  ends_observe ((h e held).mono (fun _ _ spared => spared) fun _ spared _ => spared)

end Steps

/-! ## Statements that read -/

theorem spares_view : Spares slot (view slot) := by
  intro e held
  obtain ⟨c, open_, settled⟩ := held.connection
  have quietly {mid : Engine} (quiet : e.Quiet mid) : Undisturbed slot e mid :=
    ⟨⟨quiet.sound, c, quiet.connection?.trans open_, settled⟩, quiet.nodes,
      fun _ _ => quiet.connection?⟩
  simp only [view, ends_bind]
  refine (settle_quiet held.sound open_ (settled trivial)).mono (fun _ mid quiet => ?_)
    fun _ => quietly
  have stillOpen := quiet.connection?.trans open_
  simp only [ends_connection, stillOpen, ends_get]
  cases mid.seen c with
  | error error => exact quietly quiet
  | ok found =>
    simp only
    split_ifs with keeps
    · simp only [ends_bind, ends_set, ends_pure]
      have remembering := connection?_remember stillOpen found
      refine ⟨⟨quiet.sound.remember stillOpen keeps found, _, remembering, settled⟩, quiet.nodes,
        fun other ne => ?_⟩
      rw [connection?_update_eq, if_neg ne.symm]
      exact quiet.connection?
    · exact quietly quiet

theorem spares_learn (d : Declaration) : Spares slot (learn slot d) := by
  intro e held
  obtain ⟨c, open_, settled⟩ := held.connection
  obtain ⟨sound, known, reopened⟩ := learned_of_open held.sound open_ d
  refine ⟨⟨sound, _, reopened, settled⟩, rfl, fun other ne => ?_⟩
  rw [connection?_update_eq, if_neg ne.symm]

theorem spares_declaration : Spares slot (declaration slot) := by
  refine spares_connection.bind fun c => ?_
  split
  · exact spares_pure _
  · exact spares_view.bind fun db => (spares_learn _).bind fun _ => spares_pure _

theorem spares_recheck (known : Declaration) (check : Check) (error : Error) :
    Spares slot (recheck slot known check error) := by
  refine spares_view.observe.bind fun seen => ?_
  split
  · exact spares_throw _
  · split
    · exact spares_throw _
    · exact (spares_learn _).bind fun _ => spares_ofExcept _

theorem spares_viewChecked (known : Declaration) (check : Check) :
    Spares slot (viewChecked slot known check) := by
  refine spares_view.bind fun db => ?_
  split
  · exact spares_pure _
  · refine (spares_learn _).bind fun _ => ?_
    split
    · exact spares_pure _
    · exact spares_throw _

theorem spares_requireWritable : Spares slot (requireWritable slot) := by
  refine spares_connection.bind fun c => ?_
  split
  · exact spares_throw _
  · exact spares_pure _

theorem spares_prepare (writing : Bool) (check : Check) :
    Spares slot (prepare slot writing check) := by
  refine spares_declaration.bind fun known => ?_
  split
  · cases writing with
    | false => exact spares_viewChecked known check
    | true => exact spares_requireWritable.bind fun _ => spares_viewChecked known check
  · rename_i error _
    have last : Spares slot (do
        recheck slot known check error
        if writing then requireWritable slot
        view slot) := by
      refine (spares_recheck known check _).bind fun _ => ?_
      cases writing with
      | false => exact spares_view
      | true => exact spares_requireWritable.bind fun _ => spares_view
    cases error.isLack with
    | false => exact spares_throw _
    | true => exact last

theorem spares_query {α : Type} (check : Check) (read : Database → Except Error α) :
    Spares slot (query slot check read) :=
  (spares_prepare false check).bind fun db => spares_ofExcept (read db)

/-! ## Statements that write -/

/-- Whether a statement that writes succeeds depends only on what it asks for, and on whether it has
something to write. -/
theorem execute_blind (slot : Nat) (check : Check) {write write' : Database → Except Error Database}
    (alike : ∀ db, (write db).map (fun _ => ()) = (write' db).map fun _ => ()) (e : Engine) :
    ((execute slot check write).on e).1 = ((execute slot check write').on e).1 := by
  simp only [execute, on_bind]
  rcases (prepare slot true check).on e with ⟨_ | db, mid⟩
  · rfl
  have same := alike db
  simp only
  cases written : write db <;> cases written' : write' db <;> rw [written, written'] at same
  · obtain rfl := Except.error.inj same
    rfl
  · cases same
  · cases same
  · exact commit_blind slot db _ _ mid

/-- A statement that writes and fails changes no file. -/
theorem execute_spares (held : Holding slot True e) (check : Check)
    (write : Database → Except Error Database) :
    (execute slot check write).Ends e (fun _ _ => True) (Undisturbed slot e) := by
  simp only [execute, ends_bind]
  refine (spares_prepare true check e held).mono_post fun db mid spared => ?_
  rw [ends_ofExcept]
  split
  · exact (commit_fails slot db _).mono_lost fun _ same => same ▸ spared
  · exact spared

/-! ## Adopting again -/

/-- Where a relation is declared, a database that has been adopted is left as it is when that is
done again. -/
theorem adopt_spares {db : Database} (held : Holding slot True e) (serves : Serves slot db e)
    (declared : db.relation.isSome) :
    (adopt slot).Ends e (fun _ after => Undisturbed slot e after ∧ Serves slot db after)
      fun after => Undisturbed slot e after ∧ Serves slot db after := by
  have looks {mid : Engine} (held : Holding slot True mid) (serves : Serves slot db mid) :=
    (view_serves serves).and (spares_view mid held)
  simp only [adopt, keepLog, declareTable, ends_bind]
  refine (looks held serves).mono (fun found mid seen => ?_) fun _ lost => lost.symm
  obtain ⟨⟨rfl, serves⟩, spared⟩ := seen
  obtain ⟨c, open_, settled⟩ := spared.held.connection
  have able : ¬(c.supportsLog = true ∧ c.log.isNone = true) := by
    rcases settled trivial with logged | unable
    · simp [Option.isSome_iff_ne_none.mp logged]
    · simp [unable]
  simp only [ends_connection, open_, if_neg able, ends_pure]
  refine (looks spared.held serves).mono (fun found last seen => ?_)
    fun _ lost => ⟨spared.trans lost.2, lost.1⟩
  obtain ⟨⟨rfl, serves⟩, again⟩ := seen
  replace spared := spared.trans again
  have there : ¬found.relation.isNone = true := by simp [Option.isSome_iff_ne_none.mp declared]
  rw [if_neg there]
  refine ((learn_serves serves _).and (spares_learn _ last spared.held)).mono ?_ ?_
  · exact fun _ after learnt => ⟨spared.trans learnt.2, learnt.1⟩
  · exact fun after learnt => ⟨spared.trans learnt.2, learnt.1⟩

end CobolDialects.Engine
