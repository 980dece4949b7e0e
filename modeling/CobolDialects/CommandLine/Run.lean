import CobolDialects.Catalog
import CobolDialects.CommandLine.Arguments
import CobolDialects.CommandLine.Help
import CobolDialects.CommandLine.Report
import CobolDialects.Logging.Grammar
import CobolDialects.Logging.Line
import CobolDialects.Settings.DatabaseFile
import CobolDialects.Settings.File

/-!
# Running a command

A run opens the log, then the store, then acts on the catalog. Nothing is printed before the action
has succeeded. The events of the run are told to the log that was opened, or to the error output if
the directory of the log cannot be made; a log that cannot be opened in its directory breaks the
run off.
-/

namespace CobolDialects.CommandLine

open Settings

/-- How a run ends. What is told about a run that is broken off is not part of it. -/
structure Exit where
  code : Nat
  output : String
  errors : Option String
deriving DecidableEq, Repr

/-- The end of a run that is broken off. -/
def Exit.brokenOff : Exit := ⟨101, "", none⟩

/-! ## The log -/

/-- Where the lines of a log go. -/
inductive Sink where
  | file (node : Nat)
  | errors
deriving DecidableEq, Repr

/-- Opens the log: none if its directory is there but the log itself cannot be opened. -/
def openLog (path : Path) (fs : FileSystem) : Option Sink × FileSystem :=
  match fs.makeDirectories (path.directory?.getD []) with
  | (.error _, left) => (some .errors, left)
  | (.ok (), made) =>
    match made.openFile path with
    | .ok (n, opened) => (some (.file n), opened)
    | .error _ => (none, made)

/-- Adds lines to a file. -/
def Sink.write (sink : Sink) (lines : String) (fs : FileSystem) : FileSystem :=
  match sink with
  | .file n => fs.appendContent n (bytesOf lines)
  | .errors => fs

/-- What of the lines goes to the error output. -/
def Sink.shown (sink : Sink) (lines : String) : String :=
  match sink with
  | .file _ => ""
  | .errors => lines

/-! ## Commands -/

/-- A list of dialects as it is printed for people. -/
def plainList (ds : List Descriptor) : String := String.join (ds.map fun d => d.line ++ "\n")

def jsonList (ds : List Descriptor) : String :=
  (Json.arr (ds.map Descriptor.record)).toLines ++ "\n"

/-- One dialect as it is shown. -/
def jsonRecord (d : Descriptor) : String := d.record.toLines ++ "\n"

def pathLines (paths : List String) : String := String.join (paths.map (· ++ "\n"))

/-- What a command answers if its store does not fail. -/
inductive Reply where
  | text (printed : String)
  | notRegistered (name : String)
deriving DecidableEq, Repr

namespace Command

/-- What a command does with a store and what it answers. -/
def action (key : String) : Command → Action Reply
  | .list json => (Catalog.list key).map fun ds =>
      .text (if json then jsonList ds else plainList ds)
  | .show name => (Catalog.find key name).map fun
    | some d => .text (jsonRecord d)
    | none => .notRegistered name
  | .register name path description owner =>
    (Catalog.register key ⟨name, path, description, owner⟩).map fun () => .text ""
  | .paths => (Catalog.paths key).map fun paths => .text (pathLines paths)

/-- What a command was about to do, for the report of its failure. -/
def context (key : String) : Command → String
  | .register name _ _ _ => s!"failed to register dialect {name}"
  | _ => s!"failed to read {key}"

/-- What a command prints, or the report of its failure. -/
def conclude (key : String) (c : Command) : Except Error Reply → Except Report String
  | .ok (.text printed) => .ok printed
  | .ok (.notRegistered name) => .error ⟨s!"dialect {name} is not registered", []⟩
  | .error e => .error ⟨c.context key, e.causes⟩

end Command

/-! ## The run -/

/-- The conclusion of a command, the engine behind it, and the events reported meanwhile. -/
structure Performance where
  conclusion : Except Report String
  state : Engine
  events : List Event

namespace Invocation

/-- Where the settings are. -/
def location (inv : Invocation) (env : Locations.Environment) : Path :=
  match inv.settings, inv.backend with
  | some path, _ => path
  | none, .json => Locations.settingsPath env
  | none, .sqlite => Locations.databasePath env

/-- Runs the command of an invocation against a store. -/
def act (inv : Invocation) (store : Store Engine) (e : Engine) : Performance :=
  let o := (inv.command.action inv.key).run store e
  ⟨inv.command.conclude inv.key o.result, o.state, o.events⟩

/-- The store on a settings file, as one on the engine of its file system. -/
def fileStore (path : Path) : Store Engine :=
  (File.store .none path).within Engine.files fun fs e => e.setFiles fs

/-- Opens the store and runs the command, at a time in microseconds. A database is closed again. -/
def perform (inv : Invocation) (env : Locations.Environment) (time : Nat) (e : Engine) :
    Performance :=
  let path := inv.location env
  match inv.backend with
  | .json =>
    let p := inv.act (fileStore path) e
    { p with events := .usingFile path :: p.events }
  | .sqlite =>
    let opened := DatabaseFile.openPath path e
    match opened.result with
    | .error error =>
      ⟨.error ⟨s!"failed to open settings database {shownText path}", error.causes⟩, opened.state,
        opened.events⟩
    | .ok slot =>
      let p := inv.act (DatabaseFile.store (time / 1000) slot) opened.state
      { p with state := p.state.close slot, events := opened.events ++ p.events }

/-- The end of a run, given what was said before and what goes to the error output of its log. -/
def exit (said : String) (conclusion : Except Report String) : Exit :=
  match conclusion with
  | .ok text => ⟨0, text, some said⟩
  | .error report => ⟨1, "", some (said ++ report.text)⟩

/-- Runs an invocation, log and all. How a filter of the log is written is told by a grammar. -/
def run {δ φ : Type} (g : LogFilter.Grammar δ φ) (inv : Invocation) (env : Locations.Environment)
    (time : Nat) (e : Engine) : Exit × Engine :=
  match openLog (Locations.logPath env) e.files, g.select env.logFilter inv.logLevel with
  | (none, left), _ => (.brokenOff, e.setFiles left)
  | (some _, opened), .error _ => (.brokenOff, e.setFiles opened)
  | (some sink, opened), .ok choice =>
    let p := inv.perform env time (e.setFiles opened)
    let lines := Logging.lines time (p.events.filter (g.admits choice.filter))
    let remarks := String.join (choice.remarks.map (· ++ "\n"))
    (exit (remarks ++ sink.shown lines) p.conclusion,
      p.state.setFiles (sink.write lines p.state.files))

end Invocation

/-- Runs the program on its arguments. -/
def run {δ φ : Type} (g : LogFilter.Grammar δ φ) (args : List Bytes) (env : Locations.Environment)
    (time : Nat) (e : Engine) : Exit × Engine :=
  match readArguments args with
  | .ok inv => inv.run g env time e
  | .error (.help topic) => (⟨0, topic.text, some ""⟩, e)
  | .error .version => (⟨0, versionText, some ""⟩, e)
  | .error (.usage error) => (⟨2, "", some error.text⟩, e)

end CobolDialects.CommandLine
