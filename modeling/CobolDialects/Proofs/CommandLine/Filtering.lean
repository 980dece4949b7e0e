import CobolDialects.Proofs.CommandLine.Running
import CobolDialects.Proofs.CommandLine.Selection

/-!
# What a filter decides

The filter of a log decides which lines are written to it and nothing else, unless there is none
because reading it has broken off: then the run is broken off as well.
-/

namespace CobolDialects

/-- Two file systems differ at most in what one file holds. -/
structure FileSystem.SameBut (n : Nat) (fs fs' : FileSystem) : Prop where
  entries : fs.entries = fs'.entries
  nodes : ∀ m, m ≠ n → fs.node? m = fs'.node? m
  mode : (fs.node? n).map (·.mode) = (fs'.node? n).map (·.mode)
  working : fs.working = fs'.working

theorem FileSystem.sameBut_appendContent (fs : FileSystem) (n : Nat) (bytes bytes' : Bytes) :
    SameBut n (fs.appendContent n bytes) (fs.appendContent n bytes') where
  entries := rfl
  nodes m ne := by simp [node?, appendContent, ne.symm]
  mode := by
    simp only [node?, appendContent, List.getElem?_modify, if_pos]
    cases fs.nodes[n]? with
    | none => rfl
    | some node => rcases node with ⟨content, mode⟩; cases content <;> rfl
  working := rfl

namespace CommandLine.Invocation

variable {δ φ : Type} (g : LogFilter.Grammar δ φ)

/-- A run under the filter that a level and the value of the variable stand for. -/
def runUnder (level : String) (variableText : Option Bytes) (inv : Invocation)
    (env : Locations.Environment) (time : Nat) (e : Engine) : Exit × Engine :=
  { inv with logLevel := level }.run g { env with logFilter := variableText } time e

variable {g} {level level' : String} {filter filter' : Option Bytes}
  {choice choice' : LogFilter.Choice φ} {inv : Invocation} {env : Locations.Environment}
  {time : Nat} {e : Engine} {sink : Sink} {opened left : FileSystem}

theorem runUnder_of_unopened (log : openLog (Locations.logPath env) e.files = (none, left)) :
    runUnder g level filter inv env time e = (.brokenOff, e.setFiles left) :=
  run_of_unopened g { inv with logLevel := level } { env with logFilter := filter } time log

theorem runUnder_of_unreadable {failure : LogFilter.Failure}
    (unread : g.select filter level = .error failure) :
    runUnder g level filter inv env time e =
      (.brokenOff, e.setFiles (openLog (Locations.logPath env) e.files).2) := by
  rcases log : openLog (Locations.logPath env) e.files with ⟨sink?, opened⟩
  cases sink? with
  | none => exact runUnder_of_unopened log
  | some sink =>
    exact run_of_unreadable g { inv with logLevel := level } { env with logFilter := filter } time
      log unread

/-- The command is performed before the filter is asked about any event. -/
theorem runUnder_of_opened (log : openLog (Locations.logPath env) e.files = (some sink, opened))
    (read : g.select filter level = .ok choice) :
    let p := inv.perform env time (e.setFiles opened)
    runUnder g level filter inv env time e =
      (exit (remarks choice ++ sink.shown (logged g time choice p)) p.conclusion,
        p.state.setFiles (sink.write (logged g time choice p) p.state.files)) :=
  run_of_opened g { inv with logLevel := level } { env with logFilter := filter } time log read

/-- Two filters, each given by a level and by the value of the variable, decide nothing but whether
there is a filter at all, in whatever grammar they are written. If there are both, two runs end with
the same code, print the same, and leave the same behind but for what is in the log; where there is
none its run is broken off before anything is done about the settings. There is one unless reading a
directive breaks off, whatever else is wrong with them. -/
theorem filter_decides_nothing (g : LogFilter.Grammar δ φ) (inv : Invocation)
    (env : Locations.Environment) (time : Nat) (e : Engine) :
    (∀ level level' filter filter' choice choice',
      g.select filter level = .ok choice → g.select filter' level' = .ok choice' →
        let one := runUnder g level filter inv env time e
        let other := runUnder g level' filter' inv env time e
        one.1.code = other.1.code ∧ one.1.output = other.1.output ∧
          match (openLog (Locations.logPath env) e.files).1 with
          | some (.file n) => ∃ fs', other.2 = one.2.setFiles fs' ∧ one.2.files.SameBut n fs'
          | _ => other.2 = one.2) ∧
    (∀ level filter failure, g.select filter level = .error failure →
      runUnder g level filter inv env time e =
        (.brokenOff, e.setFiles (openLog (Locations.logPath env) e.files).2)) ∧
    ∀ level filter, (∀ text, filter.bind textOf? = some text → g.Unbroken text) →
      g.Unbroken level → ∃ choice, g.select filter level = .ok choice := by
  refine ⟨fun level level' filter filter' choice choice' read read' => ?_,
    fun level filter failure unread => runUnder_of_unreadable unread,
    fun level filter => LogFilter.Grammar.exists_select⟩
  rcases log : openLog (Locations.logPath env) e.files with ⟨sink?, opened⟩
  cases sink? with
  | none =>
    rw [runUnder_of_unopened log, runUnder_of_unopened log]
    exact ⟨rfl, rfl, rfl⟩
  | some sink =>
    rw [runUnder_of_opened log read, runUnder_of_opened log read']
    refine ⟨(exit_said _ _ _).1, (exit_said _ _ _).2, ?_⟩
    cases sink with
    | file n => exact ⟨_, rfl, FileSystem.sameBut_appendContent _ n _ _⟩
    | errors => rfl

/-- A level that lets nothing through and one of which half is not understood come to the same; one
with a space before a target, as wide as two bytes, breaks the run off. -/
theorem levels_of_one_run :
    let inv : Invocation := ⟨.json, some (bytesOf "s"), "k", "info", .list true⟩
    let env : Locations.Environment := ⟨none, some (bytesOf "d"), none, none⟩
    let run := fun level =>
      (runUnder LogFilter.Grammar.targets level none inv env 0 (.onFiles .empty)).1
    (run "off").code = (run "trace,?").code ∧ (run "off").output = (run "trace,?").output ∧
      run "\u00a0a=info" = .brokenOff := by
  intro inv env run
  obtain ⟨same, broken, reads⟩ :=
    filter_decides_nothing LogFilter.Grammar.targets inv env 0 (.onFiles .empty)
  have unset (text : String) (given : (none : Option Bytes).bind textOf? = some text) :
      LogFilter.Grammar.targets.Unbroken text := by cases given
  obtain ⟨choice, off⟩ := reads "off" none unset (by decide)
  obtain ⟨choice', half⟩ := reads "trace,?" none unset (by decide)
  have unread : LogFilter.Grammar.targets.select none "\u00a0a=info" = .error .broken := by decide
  have both := same _ _ none none _ _ off half
  exact ⟨both.1, both.2.1, congrArg Prod.fst (broken _ none _ unread)⟩

end CommandLine.Invocation

end CobolDialects
