import CobolDialects.Engine.Statement
import CobolDialects.Proofs.Engine.Access

/-!
# Statements on what a connection sees

However often a statement is understood anew, it is carried out on the database that its connection
sees.
-/

namespace CobolDialects.Engine

open Attempt Database

variable {e : Engine} {slot : Nat} {c : Connection} {db : Database}

/-- The engine for which a connection has learnt of a declaration. -/
def learned (e : Engine) (slot : Nat) (d : Declaration) : Engine :=
  e.update slot fun c => if c.sharing then c else { c with known := some d }

theorem learned_of_open (h : e.Sound) (open_ : e.connection? slot = some c) (d : Declaration) :
    (e.learned slot d).Sound ∧
      ∃ known, (e.learned slot d).connection? slot = some { c with known } := by
  have sound := h.connection open_
  constructor
  · refine h.update _ fun c' same => ?_
    obtain rfl := Option.some.inj (open_.symm.trans same)
    split_ifs
    · exact sound
    · exact { sound with }
  · refine ⟨if c.sharing then c.known else some d, ?_⟩
    rw [learned, connection?_update, open_, Option.map_some]
    split_ifs <;> rfl

theorem learn_serves (h : Serves slot db e) (d : Declaration) :
    (learn slot d).Ends e (fun _ => Serves slot db) (Serves slot db) := by
  obtain ⟨c, open_, settled, sees⟩ := h.connection
  obtain ⟨sound, known, reopened⟩ := learned_of_open h.sound open_ d
  exact ⟨sound, _, reopened, settled, sees⟩

theorem declaration_serves (h : Serves slot db e) :
    (declaration slot).Ends e (fun _ => Serves slot db) (Serves slot db) := by
  obtain ⟨c, open_, -⟩ := h.connection
  simp only [declaration, ends_bind, ends_connection, open_]
  split
  · exact h
  · simp only [ends_bind, ends_pure]
    refine (view_serves h).mono_post fun seen after viewed => ?_
    exact learn_serves viewed.2 seen.declaration

theorem recheck_serves (h : Serves slot db e) (known : Declaration) (check : Check)
    (error : Error) :
    (recheck slot known check error).Ends e (fun _ => Serves slot db) (Serves slot db) := by
  simp only [recheck, ends_bind]
  refine ends_observe
    ((view_serves h).mono (fun seen after viewed => ?_) fun after lost error => lost)
  simp only
  split
  · exact viewed.2
  · simp only [ends_bind]
    refine (learn_serves viewed.2 seen.declaration).mono_post fun _ last learnt => ?_
    rw [ends_ofExcept]
    split <;> exact learnt

theorem viewChecked_serves (h : Serves slot db e) (known : Declaration) (check : Check) :
    (viewChecked slot known check).Ends e (fun seen after => seen = db ∧ Serves slot db after)
      (Serves slot db) := by
  simp only [viewChecked, ends_bind]
  refine (view_serves h).mono_post fun seen after viewed => ?_
  split
  · exact viewed
  · simp only [ends_bind]
    refine (learn_serves viewed.2 seen.declaration).mono_post fun _ last learnt => ?_
    split
    · exact ⟨viewed.1, learnt⟩
    · exact learnt

theorem requireWritable_serves (h : Serves slot db e) :
    (requireWritable slot).Ends e (fun _ => Serves slot db) (Serves slot db) := by
  obtain ⟨c, open_, -⟩ := h.connection
  simp only [requireWritable, ends_bind, ends_connection, open_]
  split <;> exact h

theorem prepare_serves (h : Serves slot db e) (writing : Bool) (check : Check) :
    (prepare slot writing check).Ends e (fun seen after => seen = db ∧ Serves slot db after)
      (Serves slot db) := by
  simp only [prepare, ends_bind]
  refine (declaration_serves h).mono_post fun known after serves => ?_
  split
  · split
    · simp only [ends_bind]
      refine (requireWritable_serves serves).mono_post fun _ _ still => ?_
      exact viewChecked_serves still known check
    · exact viewChecked_serves serves known check
  · split
    · exact serves
    · simp only [ends_bind]
      refine (recheck_serves serves known check _).mono_post fun _ mid rechecked => ?_
      split
      · simp only [ends_bind]
        exact (requireWritable_serves rechecked).mono_post fun _ _ still => view_serves still
      · exact view_serves rechecked

/-- A statement that reads gives what is to be read in the database that is seen. -/
theorem query_serves {α : Type} (h : Serves slot db e) (check : Check)
    (read : Database → Except Error α) :
    (query slot check read).Ends e (fun x after => read db = .ok x ∧ Serves slot db after)
      (Serves slot db) := by
  simp only [query, ends_bind]
  refine (prepare_serves h false check).mono_post fun seen after prepared => ?_
  obtain ⟨rfl, serves⟩ := prepared
  rw [ends_ofExcept]
  split
  · rename_i x answer
    exact ⟨answer, serves⟩
  · exact serves

/-- After a statement that writes, the connection sees what was to be written, or what it has
seen. -/
theorem execute_serves (h : Serves slot db e) (check : Check)
    (write : Database → Except Error Database) :
    (execute slot check write).Ends e
      (fun _ after => ∃ changed, write db = .ok changed ∧ Serves slot changed after ∧
        ∃ c, after.connection? slot = some c ∧ after.seen c = .ok changed)
      (Serves slot db) := by
  simp only [execute, ends_bind]
  refine (prepare_serves h true check).mono_post fun seen after prepared => ?_
  obtain ⟨rfl, serves⟩ := prepared
  rw [ends_ofExcept]
  split
  · rename_i changed written
    exact (commit_serves serves changed).mono (fun _ _ done => ⟨changed, written, done⟩)
      fun _ same => same ▸ serves
  · exact serves

end CobolDialects.Engine
