import CobolDialects.Proofs.Engine.Learning

/-!
# Stores in company

A store has its database open, and so may others have, stores and programs that change it in
whatever way. As long as the store stays, its log stays, and whoever is there goes on seeing the
database as it was left last, whatever each of them knows of its declaration.
-/

namespace CobolDialects.Engine

open Attempt Database

variable {path : Path} {base : FileSystem} {at_ : Location} {f : Files} {db changed : Database}
  {e : Engine} {slot other : Nat} {c : Connection}

/-! ## Sound engines stay so -/

theorem sound_vacated (h : e.Sound) (slot : Nat) : (e.vacated slot).Sound where
  files := h.files
  connections c there := h.connections c ((List.mem_or_eq_of_mem_set there).resolve_right nofun)
  named := h.named

theorem sound_checkpoint {file : Nat} {use : LogUse} {done : Engine} (h : e.Sound)
    (checkpoint : e.checkpoint? file use = some done) : done.Sound := by
  unfold checkpoint? at checkpoint
  split_ifs at checkpoint
  · exact Option.some.inj checkpoint ▸ h
  · split at checkpoint
    · obtain ⟨db, -, rfl⟩ := Option.map_eq_some_iff.mp checkpoint
      exact h.setContent _ _
    · cases checkpoint

theorem sound_unlink (h : e.Sound) (at_ : Location) : (e.setFiles (e.files.unlink at_)).Sound :=
  (quiet_unlink h at_).sound

theorem sound_leaveLog (h : e.Sound) (c : Connection) (at_ : Location) (use : LogUse) :
    (e.leaveLog c at_ use).Sound := by
  unfold leaveLog
  split
  · exact h
  · rename_i done checkpoint
    have sound := sound_unlink (sound_checkpoint h checkpoint) (Location.beside at_ logEnding)
    split_ifs
    · exact h
    · cases use.place with
      | none => exact sound
      | some place => exact sound_unlink sound place

theorem sound_close (h : e.Sound) (slot : Nat) : (e.close slot).Sound := by
  have vacated := sound_vacated h slot
  unfold close
  cases e.connection? slot with
  | none => exact h
  | some c =>
    simp only
    split
    · split_ifs
      · exact vacated
      · exact sound_leaveLog vacated c _ _
    · split_ifs
      · exact vacated
      · exact ⟨vacated.files, vacated.connections, fun d there =>
          vacated.named d (List.mem_of_mem_filter there)⟩

/-! ## Statements on closed connections -/

theorem prepare_closed (closed : e.connection? slot = none) (writing : Bool) (check : Check) :
    (prepare slot writing check).Comes e (.error (.obstacle .unreachable)) (· = e) := by
  have refused : (connection slot).Comes e (.error (.obstacle .unreachable)) (· = e) := by
    refine comes_get.bind ?_
    rintro _ rfl
    rw [closed]
    exact comes_refuse rfl
  exact refused.bind_error.bind_error

/-! ## Steps -/

/-- A store in a slot has the database open. Others may have it open too, and need not know of its
present declaration. -/
structure Company (base : FileSystem) (at_ : Location) (f : Files) (slot : Nat) (db : Database)
    (e : Engine) : Prop where
  sound : e.Sound
  attended : Attended base at_ f {slot} Informed db e

namespace Company

theorem forProcess (h : Company base at_ f slot db e) (process : Nat) :
    Company base at_ f slot db { e with process } where
  sound := ⟨h.sound.files, h.sound.connections, h.sound.named⟩
  attended := ⟨h.attended.files.congr rfl, h.attended.partakes, h.attended.opened⟩

theorem own (h : Company base at_ f slot db e) : ∃ c, e.connection? slot = some c :=
  h.attended.opened slot rfl

theorem attends (h : Company base at_ f slot db e) (open_ : e.connection? other = some c) :
    Attends other c db e ∧ c.sharing = false ∧ Informed db c.known := by
  obtain ⟨partakes, informed⟩ := h.attended.partakes other c open_
  exact ⟨h.attended.attends h.sound open_, partakes.private_, informed⟩

theorem holding (h : Company base at_ f slot db e) (open_ : e.connection? other = some c) :
    Holding other True e := by
  obtain ⟨partakes, -⟩ := h.attended.partakes other c open_
  exact ⟨h.sound, c, open_, fun _ => .inl (by simp [partakes.log])⟩

theorem through (h : Company base at_ f slot db e) (open_ : e.connection? other = some c) :
    AttendedThrough base at_ f {slot} Informed other c.known db e :=
  ⟨h.attended, informed_declaration db, c, open_, rfl⟩

/-- A statement that reads leaves the database as it is, through whichever connection. -/
theorem query_comes {α : Type} (h : Company base at_ f slot db e) (other : Nat) (check : Check)
    (read : Database → Except Error α) :
    ∃ result, (query other check read).Comes e result (Company base at_ f slot db) := by
  cases open_ : e.connection? other with
  | none =>
    refine ⟨_, (prepare_closed open_ false check).bind_error.mono ?_⟩
    rintro _ rfl
    exact h
  | some c =>
    have queried := ((consulting_attended base at_ f {slot} Informed other false).query_comes
      (h.through open_) check read).comes
    have spared := (spares_query check read e (h.holding open_)).mono
      (fun _ _ spared => spared.held)
      fun _ spared => spared.held
    refine ⟨_, (queried.and_ends spared).mono fun after ⟨consulted, held⟩ =>
      ⟨?_, consulted.attended⟩⟩
    split at held <;> exact held.sound

/-- A statement that writes leaves the database as it is to be, or as it is. -/
theorem execute_comes (h : Company base at_ f slot db e) (other : Nat) {check : Check}
    (write : Database → Except Error Database)
    (alike : ∀ shape, (check shape).mapError Error.retold = check shape)
    (writes : check db.shape? = .ok () → ∃ changed, write db = .ok changed ∧
      changed.logged = true ∧ ∀ known, Informed db known → Informed changed known) :
    ∃ result changed, (changed = db ∨ write db = .ok changed) ∧
      (execute other check write).Comes e result (Company base at_ f slot changed) := by
  cases open_ : e.connection? other with
  | none =>
    refine ⟨_, db, .inl rfl, (prepare_closed open_ true check).bind_error.mono ?_⟩
    rintro _ rfl
    exact h
  | some c =>
    have consulting := consulting_attended base at_ f {slot} Informed other true
    obtain ⟨attends, -, informed⟩ := h.attends open_
    have serves : Serves other db e := by
      obtain ⟨sound, c', open', settled⟩ := h.holding open_
      obtain rfl := Option.some.inj (open_.symm.trans open')
      exact ⟨sound, c, open_, settled trivial, fun db' seen =>
        Except.ok.inj (seen.symm.trans attends.seen)⟩
    have ends := execute_serves serves check write
    cases understands : understood (c.known.getD db.declaration) db check with
    | error error =>
      have failed := (consulting.execute_fails (h.through open_) write understands).comes
      exact ⟨_, db, .inl rfl, (failed.and_ends ends).mono fun after ⟨consulted, still⟩ =>
        ⟨still.sound, consulted.attended⟩⟩
    | ok =>
      obtain ⟨changed, written, asks, keeps⟩ :=
        writes (check_of_understood informed alike understands)
      have done : (execute other check write).Comes e (.ok ())
          (Attended base at_ f {slot} Informed changed) := by
        refine (consulting.execute_comes (h.through open_) understands written
          fun after consulted => ?_).comes
        obtain ⟨_, ⟨attended, -, c', reopened, -⟩, -⟩ := consulted
        exact .inl (attended.commit_comes reopened asks keeps)
      refine ⟨_, changed, .inr written,
        (done.and_ends ends).mono fun after ⟨attended, served⟩ => ?_⟩
      obtain ⟨_, -, still, -⟩ := served
      exact ⟨still.sound, attended⟩

/-! ## Coming and going -/

/-- Opening a store on a database declared in whatever shape leaves it as it is, and whoever is
there goes on seeing it. -/
theorem opens (h : Company base at_ f slot db e) (site : Site path at_ base) :
    ∃ new ≠ slot, (connectAnd path adopt).Comes e (.ok (new, ())) fun after =>
      Company base at_ f slot db.declare after ∧ ∃ c, after.connection? new = some c := by
  obtain ⟨new, unused, mid, connects, views⟩ :=
    h.attended.connects site ⟨slot, h.own⟩ informed_none
  have adopts := adopt_of_view views (.inl rfl) (informed_declaration _) fun _ => .declare
  refine ⟨new, fun same => unused same, ?_⟩
  refine ((connectAnd_comes connects adopts).and_ends (connectAnd_holding h.sound path)).mono ?_
  rintro after ⟨attended, held⟩
  exact ⟨⟨held.sound, attended.mono fun _ own => .inr own⟩, attended.opened new (.inl rfl)⟩

theorem closes (h : Company base at_ f slot db e) (site : Site path at_ base) (ne : other ≠ slot) :
    Company base at_ f slot db (e.close other) := by
  refine ⟨sound_close h.sound other, ?_⟩
  cases open_ : e.connection? other with
  | none =>
    unfold close
    rw [open_]
    exact h.attended
  | some c =>
    have both : Attended base at_ f (insert other {slot}) Informed db e :=
      ⟨h.attended.files, h.attended.partakes, fun there inside =>
        inside.elim (fun same => ⟨c, same ▸ open_⟩) (h.attended.opened there)⟩
    rcases both.close site (.inl rfl) with ⟨-, still⟩ | ⟨alone, -⟩
    · exact still.mono fun there own => ⟨.inr own, fun same => ne (same.symm.trans own)⟩
    · have own : slot ∈ ({other} : Set Nat) := alone ▸ .inr rfl
      exact absurd own.symm ne

/-- A store that is closed and opened anew finds the database as it was, whoever has stayed. -/
theorem reopens (h : Company base at_ f slot db e) (site : Site path at_ base)
    (declared : db.shape?.isSome) :
    FileSystem.Varies (places at_) base (e.close slot).files ∧
      ∃ new f', (connectAnd path adopt).Comes (e.close slot) (.ok (new, ()))
        (Company base at_ f' new db) := by
  have sound := connectAnd_holding (sound_close h.sound slot) path
  rcases h.attended.close site rfl with ⟨used, still⟩ | ⟨-, rests⟩
  · obtain ⟨new, -, opens⟩ := still.opens site used declared informed_none (informed_declaration db)
    refine ⟨still.files.varies, new, f, (opens.and_ends sound).mono ?_⟩
    rintro after ⟨attended, held⟩
    exact ⟨held.sound, attended.mono fun _ own => .inl own⟩
  · obtain ⟨new, f', opens⟩ := rests.opens site
    rw [prepared_of_logged h.attended.files.asks,
      declare_of_some (by simpa [shape?] using declared)] at opens
    refine ⟨rests.varies, new, f', (opens.and_ends sound).mono ?_⟩
    rintro after ⟨attended, held⟩
    exact ⟨held.sound, attended.weaken fun _ => Known.informed⟩

/-- What another program does to the database after a look at it, on a connection of its own. -/
theorem visits {α : Type} {a : α} {next : Nat → Database → Attempt α}
    (h : Company base at_ f slot db e) (site : Site path at_ base)
    (acts : ∀ new mid, mid.Sound → Attended base at_ f (insert new {slot}) Informed db mid →
      (next new db).Comes mid (.ok a) fun after =>
        after.Sound ∧ Attended base at_ f (insert new {slot}) Informed changed after) :
    (visit path fun new => view new >>= next new).Comes e (.ok a)
      (Company base at_ f slot changed) := by
  obtain ⟨new, unused, mid, connects, views⟩ :=
    h.attended.connects site ⟨slot, h.own⟩ informed_none
  obtain ⟨_, _, rfl, held⟩ := connects.and_ends (connect_holding h.sound path)
  obtain ⟨c, open_, -⟩ := held.connection
  have looks := views.and_ends (view_holding held.sound open_)
  have connected : (connectAnd path fun new => view new >>= next new).Comes e (.ok (new, a)) _ :=
    connectAnd_comes connects
      (looks.bind fun after ⟨attended, still⟩ => acts new after still.sound attended)
  refine connected.bind ?_
  rintro after ⟨sound, attended⟩
  refine Comes.bind ⟨_, rfl, rfl⟩ ?_
  rintro _ rfl
  refine comes_pure ⟨sound_close sound new, ?_⟩
  rcases attended.close site (.inl rfl) with ⟨-, still⟩ | ⟨alone, -⟩
  · exact still.mono fun there own => ⟨.inr own, fun same => unused (same.symm.trans own)⟩
  · have own : slot ∈ ({new} : Set Nat) := alone ▸ .inr rfl
    exact absurd own.symm unused

end Company

end CobolDialects.Engine
