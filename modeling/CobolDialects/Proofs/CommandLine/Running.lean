import CobolDialects.CommandLine.Run

/-!
# How runs end

A run comes to one of three ends: it is broken off because its log cannot be opened, or because its
filter cannot be read, or it performs its command. The log takes part in the last one only in that
lines are added to a file, or to the error output, once the command has been performed.
-/

namespace CobolDialects.CommandLine.Invocation

open Settings

variable {δ φ : Type} (g : LogFilter.Grammar δ φ) (inv : Invocation) (env : Locations.Environment)
  (time : Nat) {e : Engine} {sink : Sink} {opened left : FileSystem} {choice : LogFilter.Choice φ}
  {failure : LogFilter.Failure}

/-- The log of a performance, as a filter leaves it. -/
def logged (time : Nat) (choice : LogFilter.Choice φ) (p : Performance) : String :=
  Logging.lines time (p.events.filter (g.admits choice.filter))

/-- What is said about the parts of a filter that are left out. -/
def remarks (choice : LogFilter.Choice φ) : String :=
  String.join (choice.remarks.map (· ++ "\n"))

theorem run_of_unopened (log : openLog (Locations.logPath env) e.files = (none, left)) :
    inv.run g env time e = (.brokenOff, e.setFiles left) := by
  simp only [run, log]

theorem run_of_unreadable (log : openLog (Locations.logPath env) e.files = (some sink, opened))
    (filter : g.select env.logFilter inv.logLevel = .error failure) :
    inv.run g env time e = (.brokenOff, e.setFiles opened) := by
  simp only [run, log, filter]

theorem run_of_opened (log : openLog (Locations.logPath env) e.files = (some sink, opened))
    (filter : g.select env.logFilter inv.logLevel = .ok choice) :
    let p := inv.perform env time (e.setFiles opened)
    inv.run g env time e =
      (exit (remarks choice ++ sink.shown (logged g time choice p)) p.conclusion,
        p.state.setFiles (sink.write (logged g time choice p) p.state.files)) := by
  simp only [run, log, filter]
  rfl

/-- A run on a settings file. -/
theorem perform_of_json (json : inv.backend = .json) :
    let p := inv.act (fileStore (inv.location env)) e
    inv.perform env time e = { p with events := .usingFile (inv.location env) :: p.events } := by
  simp only [perform, json]

/-- A run on a database that can be opened. -/
theorem perform_of_opened (sqlite : inv.backend = .sqlite) {slot : Nat}
    (opened : (DatabaseFile.openPath (inv.location env) e).result = .ok slot) :
    let o := DatabaseFile.openPath (inv.location env) e
    let p := inv.act (DatabaseFile.store (time / 1000) slot) o.state
    inv.perform env time e =
      { p with state := p.state.close slot, events := o.events ++ p.events } := by
  simp only [perform, sqlite, opened]

theorem exit_code (said : String) (conclusion : Except Report String) :
    (exit said conclusion).code = 0 ∧ (∃ text, conclusion = .ok text) ∨
      (exit said conclusion).code = 1 ∧ (∃ report, conclusion = .error report) ∧
        (exit said conclusion).output = "" := by
  cases conclusion with
  | ok text => exact .inl ⟨rfl, text, rfl⟩
  | error report => exact .inr ⟨rfl, ⟨report, rfl⟩, rfl⟩

/-- What is said on the error output decides neither the code nor what is printed. -/
theorem exit_said (said other : String) (conclusion : Except Report String) :
    (exit said conclusion).code = (exit other conclusion).code ∧
      (exit said conclusion).output = (exit other conclusion).output := by
  cases conclusion <;> exact ⟨rfl, rfl⟩

end CobolDialects.CommandLine.Invocation
