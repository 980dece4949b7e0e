import CobolDialects.Proofs.Settings.Separation

/-!
# The calls of an operation

Nothing is known here of the store: it may answer anything at any time, as its state, which is any,
tells it to. What an operation of the catalog asks of it, and in which order, is still fixed: it
reads once and, to register, writes once if the answer was a list.
-/

namespace CobolDialects

namespace Settings

variable {σ α β : Type}

namespace Action

/-- The calls that the store receives while an action is run, with what it answers, the first call
first. -/
def calls (store : Store σ) : Action α → σ → List (Request × Reply)
  | .done _, _ => []
  | .get key next, s =>
    let o := store.get key s
    (.get key, .value o.result) :: (next o.result).calls store o.state
  | .set key value next, s =>
    let o := store.set key value s
    (.set key value, .done o.result) :: (next o.result).calls store o.state
  | .emit _ next, s => next.calls store s

/-- The calls account for the run: whoever makes them one after the other gets the same answers, and
leaves the state that the run leaves. -/
theorem replies_calls (store : Store σ) (a : Action α) (s : σ) :
    replies (fun _ : Unit => store) ((a.calls store s).map fun call => ((), call.1)) s =
      (a.calls store s, (a.run store s).state) := by
  induction a generalizing s with
  | done result => rfl
  | get key next ih =>
    have later := ih (store.get key s).result (store.get key s).state
    simp only [calls, List.map_cons, replies, Request.run, later]
    rfl
  | set key value next ih =>
    have later := ih (store.set key value s).result (store.set key value s).state
    simp only [calls, List.map_cons, replies, Request.run, later]
    rfl
  | emit event next ih => exact ih s

/-- What comes after an action calls when the action has succeeded, and only then. -/
theorem calls_bind (store : Store σ) (a : Action α) (f : α → Action β) (s : σ) :
    (a.bind f).calls store s = a.calls store s ++
      match (a.run store s).result with
      | .ok x => (f x).calls store (a.run store s).state
      | .error _ => [] := by
  induction a generalizing s with
  | done result => cases result <;> rfl
  | get key next ih => exact congrArg (List.cons _) (ih _ _)
  | set key value next ih => exact congrArg (List.cons _) (ih _ _)
  | emit event next ih => exact ih s

/-- What an action comes to on a store that is in a certain state: the calls that it makes, its
result, and the state that it leaves. -/
structure Makes (store : Store σ) (s : σ) (a : Action α) (calls : List (Request × Reply))
    (result : Except Error α) (after : σ) : Prop where
  calls : a.calls store s = calls
  result : (a.run store s).result = result
  state : (a.run store s).state = after

namespace Makes

variable {store : Store σ} {s after last : σ} {a : Action α} {f : α → Action β}
  {calls later : List (Request × Reply)}

/-- An action that fails is the end of whatever it is the beginning of. -/
theorem bind_error {e : Error} (h : Makes store s a calls (.error e) after) (f : α → Action β) :
    Makes store s (a.bind f) calls (.error e) after where
  calls := by rw [calls_bind, h.calls, h.result, List.append_nil]
  result := by rw [run_bind, Outcome.andThen, h.result]
  state := by rw [run_bind, Outcome.andThen, h.result]; exact h.state

theorem bind_ok {x : α} {result : Except Error β} (h : Makes store s a calls (.ok x) after)
    (goesOn : Makes store after (f x) later result last) :
    Makes store s (a.bind f) (calls ++ later) result last where
  calls := by
    rw [calls_bind, h.calls, h.result, h.state]
    exact congrArg (calls ++ ·) goesOn.calls
  result := by rw [run_bind, Outcome.andThen, h.result, h.state]; exact goesOn.result
  state := by rw [run_bind, Outcome.andThen, h.result, h.state]; exact goesOn.state

/-- To make something of the result takes no call. -/
theorem map {result : Except Error α} (h : Makes store s a calls result after) (f : α → β) :
    Makes store s (a.map f) calls (result.map f) after := by
  cases result with
  | error e => exact h.bind_error _
  | ok x =>
    have done : Makes store after (.done (.ok (f x))) [] (.ok (f x)) after := ⟨rfl, rfl, rfl⟩
    have both : Makes store s (a.map f) (calls ++ []) (.ok (f x)) after := h.bind_ok done
    rwa [List.append_nil] at both

end Makes

end Action

end Settings

namespace Catalog

open Settings

variable {σ : Type}

/-- A list is read with one call, and what is made of the answer is no longer up to the store. -/
theorem makes_list (store : Store σ) (key : String) (s : σ) :
    (list key).Makes store s [(.get key, .value (store.get key s).result)]
      ((store.get key s).result.bind (listOf key)) (store.get key s).state := by
  cases answer : (store.get key s).result with
  | error e =>
    refine ⟨?_, ?_, ?_⟩ <;>
      simp [list, Action.calls, Action.run, Outcome.after, Except.bind, answer]
  | ok found =>
    cases found <;>
      refine ⟨?_, ?_, ?_⟩ <;>
        simp [list, listOf, Action.calls, Action.run, Outcome.after, Except.bind, answer]

/-- A list is read and then written back, with the descriptor registered. -/
theorem makes_register_of_ok {store : Store σ} {key : String} {s : σ} {ds : List Descriptor}
    (read : (store.get key s).result.bind (listOf key) = .ok ds) (d : Descriptor) :
    let put := store.set key (encode (upsert ds d)) (store.get key s).state
    (register key d).Makes store s
      [(.get key, .value (store.get key s).result),
        (.set key (encode (upsert ds d)), .done put.result)] put.result put.state := by
  have listing := makes_list store key s
  rw [read] at listing
  exact listing.bind_ok ⟨rfl, rfl, rfl⟩

/-- The answers that `list` makes a list of: no value, and a value that is one. -/
theorem listed_iff (key : String) (answer : Except Error (Option Json)) :
    (∃ ds, answer.bind (listOf key) = .ok ds) ↔
      answer = .ok none ∨ ∃ v ds, answer = .ok (some v) ∧ decode key v = .ok ds := by
  match answer with
  | .error e => simp [Except.bind]
  | .ok none => simp [Except.bind, listOf]
  | .ok (some v) => simp [Except.bind, listOf]

/-- Whatever the store is and whatever it answers, `list`, `find` and `paths` make one call, which
reads the key, and fail just when it or what it answers does. `register` makes the same call. Where
`list` fails, it fails with the same error and writes nothing; where `list` succeeds, it writes
once, under the same key, and ends as that call does, whether well or with an error. So it writes if
and only if the store answered that there is no value or answered with a value that `list` takes. -/
theorem calls_operations (store : Store σ) (key : String) (s : σ) :
    let got := store.get key s
    let asked : Request × Reply := (.get key, .value got.result)
    let listing := got.result.bind (listOf key)
    (list key).Makes store s [asked] listing got.state ∧
    (∀ name, (find key name).Makes store s [asked]
      (listing.map (·.find? (·.name = name))) got.state) ∧
    (paths key).Makes store s [asked] (listing.map (·.map (·.path))) got.state ∧
    ∀ d,
      (match listing with
        | .error e => (register key d).Makes store s [asked] (.error e) got.state
        | .ok ds =>
          let put := store.set key (encode (upsert ds d)) got.state
          (register key d).Makes store s
            [asked, (.set key (encode (upsert ds d)), .done put.result)] put.result put.state) ∧
      ((∃ used value reply, (.set used value, reply) ∈ (register key d).calls store s) ↔
        got.result = .ok none ∨ ∃ v ds, got.result = .ok (some v) ∧ decode key v = .ok ds) := by
  intro got asked listing
  have listed : (list key).Makes store s [asked] listing got.state := makes_list store key s
  refine ⟨listed, fun name => listed.map _, listed.map _, fun d => ?_⟩
  rw [← listed_iff]
  cases read : listing with
  | error e =>
    rw [read] at listed
    have made : (register key d).Makes store s [asked] (.error e) got.state := listed.bind_error _
    refine ⟨made, iff_of_false ?_ ?_⟩
    · rintro ⟨used, value, reply, there⟩
      simp [made.calls, asked] at there
    · rintro ⟨ds, ok⟩
      cases read.symm.trans ok
  | ok ds =>
    have made := makes_register_of_ok read d
    refine ⟨made, iff_of_true ?_ ⟨ds, read⟩⟩
    exact ⟨key, _, _, made.calls ▸ List.mem_cons_of_mem _ List.mem_cons_self⟩

end Catalog

end CobolDialects
