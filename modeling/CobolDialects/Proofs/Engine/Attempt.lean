import CobolDialects.Engine.Basic

/-!
# What comes of an attempt

What is known of an attempt is what holds of its result and of the engine behind it if it succeeds,
and what holds of the engine that it leaves if it fails. Both are found by going through its steps.
-/

namespace CobolDialects.Attempt

open Database

variable {α β : Type} {a : Attempt α} {f : α → Attempt β} {e : Engine}
  {post post' : α → Engine → Prop} {lost lost' : Engine → Prop}

/-- On an engine the attempt ends as told: with a result and an engine, or with an engine only. -/
def Ends (a : Attempt α) (e : Engine) (post : α → Engine → Prop) (lost : Engine → Prop) : Prop :=
  match a.on e with
  | (.ok x, after) => post x after
  | (.error _, after) => lost after

theorem Ends.mono (h : a.Ends e post lost)
    (le : ∀ x after, post x after → post' x after) (leLost : ∀ after, lost after → lost' after) :
    a.Ends e post' lost' := by
  unfold Ends at h ⊢
  split at h
  · exact le _ _ h
  · exact leLost _ h

theorem Ends.mono_post (h : a.Ends e post lost)
    (le : ∀ x after, post x after → post' x after) : a.Ends e post' lost :=
  h.mono le fun _ => id

theorem Ends.and (h : a.Ends e post lost) (h' : a.Ends e post' lost') :
    a.Ends e (fun x after => post x after ∧ post' x after)
      fun after => lost after ∧ lost' after := by
  unfold Ends at h h' ⊢
  generalize a.on e = ended at h h' ⊢
  obtain ⟨_ | x, after⟩ := ended <;> exact ⟨h, h'⟩

theorem Ends.mono_lost (h : a.Ends e post lost) (le : ∀ after, lost after → lost' after) :
    a.Ends e post lost' :=
  h.mono (fun _ _ => id) le

theorem ends_on : a.Ends e (fun x after => a.on e = (.ok x, after)) fun _ => True := by
  unfold Ends
  rcases a.on e with ⟨_ | x, after⟩ <;> trivial

theorem Ends.of_forall (h : ∀ x after, post x after) : a.Ends e post fun _ => True :=
  ends_on.mono (fun _ _ _ => h _ _) fun _ _ => trivial

/-- What holds however the attempt ends holds of the engine behind it. -/
theorem Ends.behind {holds : Engine → Prop} (h : a.Ends e (fun _ => holds) holds) :
    holds (a.on e).2 := by
  unfold Ends at h
  generalize a.on e = ended at h ⊢
  obtain ⟨_ | x, after⟩ := ended <;> exact h

/-! ## Steps -/

theorem on_bind : (a >>= f).on e =
    match a.on e with
    | (.ok x, after) => (f x).on after
    | (.error error, after) => (.error error, after) := by
  show (ExceptT.bindCont f (a.run.run e).1).run (a.run.run e).2 = _
  unfold on
  rcases a.run.run e with ⟨_ | x, after⟩ <;> rfl

@[simp] theorem ends_bind {post : β → Engine → Prop} : (a >>= f).Ends e post lost ↔
    a.Ends e (fun x after => (f x).Ends after post lost) lost := by
  unfold Ends
  rw [on_bind]
  obtain ⟨_ | x, after⟩ := a.on e <;> rfl

@[simp] theorem ends_pure {x : α} : (pure x : Attempt α).Ends e post lost ↔ post x e := Iff.rfl

@[simp] theorem ends_get {post : Engine → Engine → Prop} :
    (get : Attempt Engine).Ends e post lost ↔ post e e := Iff.rfl

@[simp] theorem ends_set {e' : Engine} {post : PUnit → Engine → Prop} :
    (set e' : Attempt PUnit).Ends e post lost ↔ post ⟨⟩ e' := Iff.rfl

@[simp] theorem ends_modify {g : Engine → Engine} {post : PUnit → Engine → Prop} :
    (modify g : Attempt PUnit).Ends e post lost ↔ post ⟨⟩ (g e) := Iff.rfl

@[simp] theorem ends_setFiles {fs : FileSystem} {post : Unit → Engine → Prop} :
    (setFiles fs).Ends e post lost ↔ post () (e.setFiles fs) := Iff.rfl

@[simp] theorem ends_throw {error : Error} : (throw error : Attempt α).Ends e post lost ↔ lost e :=
  Iff.rfl

@[simp] theorem ends_refuse {o : Obstacle} : (refuse o : Attempt α).Ends e post lost ↔ lost e :=
  Iff.rfl

@[simp] theorem ends_ofExcept {result : Except Error α} :
    (MonadExcept.ofExcept result : Attempt α).Ends e post lost ↔
      match result with
      | .ok x => post x e
      | .error _ => lost e := by
  cases result <;> rfl

@[simp] theorem ends_connection {slot : Nat} {post : Connection → Engine → Prop} :
    (connection slot).Ends e post lost ↔
      match e.connection? slot with
      | some c => post c e
      | none => lost e := by
  simp only [connection, ends_bind, ends_get]
  cases e.connection? slot <;> rfl

/-- What is observed of an attempt never fails. -/
theorem ends_observe {post : Except Error α → Engine → Prop}
    (h : a.Ends e (fun x => post (.ok x)) fun after => ∀ error, post (.error error) after) :
    a.observe.Ends e post lost := by
  show post (a.on e).1 (a.on e).2
  unfold Ends at h
  split at h
  · rename_i x after ended
    rw [ended]
    exact h
  · rename_i error after ended
    rw [ended]
    exact h error

end CobolDialects.Attempt
