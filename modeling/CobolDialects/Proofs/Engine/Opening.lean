import CobolDialects.Proofs.Engine.Statement

/-!
# Connections for stores

A connection that has been opened for a store is settled: either it takes part in a log by then, or
it never will.
-/

namespace CobolDialects.Engine

open Attempt Database

variable {e : Engine} {slot : Nat} {c : Connection} {P : Prop}

/-! ## Connecting -/

theorem sound_newConnection {nodes file : Nat} (a : Address) (process : Nat)
    (location : Option Location) (there : file < nodes) :
    (newConnection a process file location).Sound nodes where
  file := there
  index use absurd := by cases absurd
  memory _ := rfl
  immutable h := by
    have immutable : a.isImmutable = true := h
    simp [newConnection, immutable]
  cached absurd := by cases absurd

theorem enter_holding (h : e.Sound) (a : Address) {file : Nat} (location : Option Location)
    (there : file < e.files.nodes.length) :
    (enter a file location).Ends e (fun slot => Holding slot False) fun _ => True := by
  simp only [enter, ends_bind, ends_get, ends_set, ends_pure]
  have sound := sound_newConnection a e.process location there
  exact ⟨h.addConnection sound, _, connection?_addConnection, False.elim⟩

theorem connectFileless_holding (h : e.Sound) (a : Address) :
    (connectFileless a).Ends e (fun slot => Holding slot False) fun _ => True := by
  simp only [connectFileless, ends_bind, ends_get]
  split
  · rename_i d found
    obtain ⟨name, -, named⟩ := Option.bind_eq_some_iff.mp found
    exact enter_holding h a none (h.named d (List.mem_of_find?_eq_some named))
  · simp only [ends_bind, ends_set]
    have longer : e.files.nodes.length <
        (e.files.addNode ⟨.bytes [], FileSystem.privateMode⟩).nodes.length := by simp
    have files := h.setFiles (h.files.addNode _) (Nat.le_of_lt longer)
    refine enter_holding ?_ a none longer
    refine ⟨files.files, files.connections, fun d there => ?_⟩
    rcases List.mem_append.mp there with old | new
    · exact files.named d old
    · obtain ⟨name, -, rfl⟩ := Option.map_eq_some_iff.mp (Option.mem_toList.mp new)
      exact longer

theorem modeFor_same (a : Address) : (modeFor a).Ends e (fun _ => (· = e)) fun _ => True := by
  simp only [modeFor]
  split
  · rfl
  · simp only [ends_bind, ends_get]
    split
    · rfl
    · trivial

theorem connectFile_holding (h : e.Sound) (name : Path) (a : Address) :
    (connectFile name a).Ends e (fun slot => Holding slot False) fun _ => True := by
  simp only [connectFile, ends_bind, ends_get]
  split
  · trivial
  simp only [ends_bind]
  refine (modeFor_same a).mono_post ?_
  rintro mode _ rfl
  split
  · rename_i file opened found
    have opens := h.files.opens found
    simp only [ends_bind, ends_setFiles]
    exact enter_holding (h.setFiles opens.sound opens.le) a _ opens.lt
  · split <;> trivial

theorem connect_holding (h : e.Sound) (name : Path) :
    (connect name).Ends e (fun slot => Holding slot False) fun _ => True := by
  simp only [connect]
  split
  · trivial
  split
  · trivial
  split
  · exact connectFileless_holding h _
  · exact connectFile_holding h name _

/-! ## The store's database -/

theorem learn_holding (h : Holding slot P e) (d : Declaration) :
    (learn slot d).Ends e (fun _ => Holding slot P) fun _ => True := by
  obtain ⟨c, open_, settles⟩ := h.connection
  obtain ⟨sound, known, reopened⟩ := learned_of_open h.sound open_ d
  exact ⟨sound, _, reopened, settles⟩

/-- Behind this the connection is settled, or it will be at the next look at the database. -/
theorem keepLog_holding (h : Holding slot P e) :
    (keepLog slot).Ends e
      (fun _ after => after.Sound ∧ ∃ c, after.connection? slot = some c ∧
        (c.Settled ∨ after.asksForLog c.file))
      fun _ => True := by
  obtain ⟨c, open_, -⟩ := h.connection
  simp only [keepLog, ends_bind]
  refine (view_holding h.sound open_).mono_post fun db mid held => ?_
  obtain ⟨c', open', -⟩ := held.connection
  simp only [ends_connection, open']
  split
  · rename_i able
    refine (commit_holding held.sound open' _ _).mono_post fun _ after done => ?_
    obtain ⟨connection, content⟩ := done.2 (Option.isNone_iff_eq_none.mp able.2)
    refine ⟨done.1.sound, c', connection, .inr ?_⟩
    rw [asksForLog, content]
    rfl
  · rename_i unable
    refine ⟨held.sound, c', open', .inl ?_⟩
    unfold Connection.Settled
    cases supports : c'.supportsLog <;> cases log : c'.log <;> simp_all

theorem declareTable_holding (h : e.Sound) (open_ : e.connection? slot = some c)
    (asks : c.Settled ∨ e.asksForLog c.file) :
    (declareTable slot).Ends e (fun _ => Holding slot True) fun _ => True := by
  simp only [declareTable, ends_bind]
  refine (view_holding h open_).mono_post fun db mid held => ?_
  obtain ⟨c', open', settles⟩ := held.connection
  split
  · simp only [ends_bind]
    refine (commit_holding held.sound open' _ _).mono_post fun _ after done => ?_
    exact learn_holding (done.1.mono fun _ => settles asks) _
  · exact learn_holding (held.mono fun _ => asks) _

theorem adopt_holding (h : Holding slot P e) :
    (adopt slot).Ends e (fun _ => Holding slot True) fun _ => True := by
  simp only [adopt, ends_bind]
  refine (keepLog_holding h).mono_post fun _ mid kept => ?_
  obtain ⟨sound, c, open_, asks⟩ := kept
  exact declareTable_holding sound open_ asks

theorem connectAnd_holding (h : e.Sound) (name : Path) :
    (connectAnd name adopt).Ends e (fun opened => Holding opened.1 True) fun _ => True := by
  simp only [connectAnd, ends_bind]
  refine (connect_holding h name).mono_post fun slot mid held => ?_
  exact ends_observe ((adopt_holding held).mono (fun _ _ adopted => adopted) fun _ _ _ => trivial)

end CobolDialects.Engine
