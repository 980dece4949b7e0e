import CobolDialects.Proofs.Catalog.Codec

/-!
# What clients ask of a store

A client uses a store by its two calls or by the operations of the catalog. Whichever it is, it
begins with a call, so nothing can be done with a store that refuses them all.
-/

namespace CobolDialects.Settings

inductive Operation where
  | get (key : String)
  | set (key : String) (value : Json)
  | list (key : String)
  | find (key name : String)
  | paths (key : String)
  | register (key : String) (d : Descriptor)

/-- What an operation answers when it succeeds. -/
inductive Answer where
  | value (found : Option Json)
  | done
  | list (ds : List Descriptor)
  | found (d : Option Descriptor)
  | paths (paths : List String)

namespace Operation

def action : Operation → Action Answer
  | .get key => (Action.get key .done).map .value
  | .set key value => (Action.set key value .done).map fun () => .done
  | .list key => (Catalog.list key).map .list
  | .find key name => (Catalog.find key name).map .found
  | .paths key => (Catalog.paths key).map .paths
  | .register key d => (Catalog.register key d).map fun () => .done

/-- What the catalog sets is always storable. -/
theorem careful_action {o : Operation} (h : ∀ key value, o = .set key value → Storable value) :
    o.action.Careful := by
  cases o with
  | get key =>
    have careful : (Action.get key .done).Careful := ⟨fun _ => rfl, fun _ => trivial⟩
    exact Action.careful_map careful _
  | set key value =>
    have careful : (Action.set key value .done).Careful := ⟨h key value rfl, fun _ => rfl, trivial⟩
    exact Action.careful_map careful _
  | list key => exact Action.careful_map (Catalog.careful_list key) _
  | find key name => exact Action.careful_map (Catalog.careful_find key name) _
  | paths key => exact Action.careful_map (Catalog.careful_paths key) _
  | register key d => exact Action.careful_map (Catalog.careful_register key d) _

end Operation

/-- The key under which an operation calls. -/
def Operation.key : Operation → String
  | .get key | .set key _ | .list key | .find key _ | .paths key | .register key _ => key

/-! ## Stores that refuse -/

variable {σ : Type} {store : Store σ} {s : σ}

/-- In a state the store fails whatever it is called for, with an error for each key, and stays as
it is. -/
structure Store.Fails (store : Store σ) (s : σ) (e : String → Error) : Prop where
  get : ∀ key, (store.get key s).result = .error (e key) ∧ (store.get key s).state = s
  set : ∀ key value,
    (store.set key value s).result = .error (e key) ∧ (store.set key value s).state = s

namespace Store.Fails

variable {e : String → Error}

theorem run_list (h : store.Fails s e) (key : String) :
    ((Catalog.list key).run store s).result = .error (e key) ∧
      ((Catalog.list key).run store s).state = s := by
  obtain ⟨failed, same⟩ := h.get key
  simp only [Catalog.list, Action.run, failed, same]
  exact ⟨rfl, rfl⟩

theorem run_bind {α β : Type} {a : Action α} {e : Error}
    (h : (a.run store s).result = .error e ∧ (a.run store s).state = s) (f : α → Action β) :
    ((a.bind f).run store s).result = .error e ∧ ((a.bind f).run store s).state = s := by
  obtain ⟨failed, same⟩ := h
  rw [Action.run_bind, Outcome.andThen, failed]
  exact ⟨rfl, same⟩

theorem run_action (h : store.Fails s e) (o : Operation) :
    (o.action.run store s).result = .error (e o.key) ∧ (o.action.run store s).state = s := by
  cases o with
  | get key =>
    refine run_bind ?_ _
    obtain ⟨failed, same⟩ := h.get key
    simp only [Action.run, failed, same]
    exact ⟨rfl, rfl⟩
  | set key value =>
    refine run_bind ?_ _
    obtain ⟨failed, same⟩ := h.set key value
    simp only [Action.run, failed, same]
    exact ⟨rfl, rfl⟩
  | list key => exact run_bind (h.run_list key) _
  | find key name => exact run_bind (run_bind (h.run_list key) _) _
  | paths key => exact run_bind (run_bind (h.run_list key) _) _
  | register key d => exact run_bind (run_bind (h.run_list key) _) _

/-- Nothing that is asked of it from then on succeeds. -/
theorem inTurn {stores : Nat → Store σ} (h : ∀ n, (stores n).Fails s e)
    (operations : List Operation) :
    Action.inTurn stores (operations.map Operation.action) s =
      (operations.map fun o => .error (e o.key), s) := by
  induction operations generalizing stores with
  | nil => rfl
  | cons o operations ih =>
    obtain ⟨failed, same⟩ := (h 0).run_action o
    rw [List.map_cons, Action.inTurn_cons, failed, same, ih fun n => h (n + 1)]
    rfl

end Store.Fails

end CobolDialects.Settings
