import CobolDialects.Logging.Directive
import CobolDialects.Proofs.CommandLine.Documents
import CobolDialects.Proofs.CommandLine.LogLines
import CobolDialects.Proofs.CommandLine.Replies
import CobolDialects.Proofs.CommandLine.Running
import CobolDialects.Proofs.Engine.Reading
import CobolDialects.Proofs.Settings.Handles

/-!
# What commands have to do with one another

All commands start from the same list, whichever store keeps it. So the code of each tells whether
its operation has succeeded, `show` and `paths` print what can be found in the output of
`list --json`, and only `register` leaves other settings behind than it has found.
-/

namespace CobolDialects

open Settings Catalog

/-! ## Stores that are opened -/

namespace CommandLine

variable {inv : Invocation} {env : Locations.Environment} {time : Nat} {e s : Engine}
  {store : Store Engine} {c : Command}

/-- A run opens its store, and acts on it in the state that opening it has left. -/
inductive Invocation.Opens (inv : Invocation) (env : Locations.Environment) (time : Nat)
    (e : Engine) : Store Engine → Engine → Prop
  | file (json : inv.backend = .json) : Opens inv env time e (fileStore (inv.location env)) e
  | database {slot : Nat} (sqlite : inv.backend = .sqlite)
    (opened : (DatabaseFile.openPath (inv.location env) e).result = .ok slot) :
    Opens inv env time e (DatabaseFile.store (time / 1000) slot)
      (DatabaseFile.openPath (inv.location env) e).state

theorem Invocation.Opens.conclusion (h : inv.Opens env time e store s) (c : Command) :
    ({ inv with command := c }.perform env time e).conclusion = c.conclusion store inv.key s := by
  cases h with
  | file json =>
    rw [perform_of_json { inv with command := c } env time json]
    rfl
  | database sqlite opened =>
    rw [perform_of_opened { inv with command := c } env time sqlite opened]
    rfl

/-! ## Codes -/

/-- The operation of the catalog behind a command succeeds, and finds what it was asked for. -/
def Command.Succeeds {σ : Type} (store : Store σ) (key : String) (s : σ) : Command → Prop
  | .list _ => ∃ ds, ((Catalog.list key).run store s).result = .ok ds
  | .show name => ∃ d, ((Catalog.find key name).run store s).result = .ok (some d)
  | .register name path description owner =>
    ((Catalog.register key ⟨name, path, description, owner⟩).run store s).result = .ok ()
  | .paths => ∃ paths, ((Catalog.paths key).run store s).result = .ok paths

/-- A command prints something just if its operation succeeds. -/
theorem Command.succeeds_iff {σ : Type} (store : Store σ) (key : String) (s : σ) (c : Command) :
    c.Succeeds store key s ↔ ∃ text, c.conclusion store key s = .ok text := by
  cases c with
  | list json =>
    rw [Command.conclusion, Command.action, Action.run_map, Outcome.map, Succeeds]
    cases ((Catalog.list key).run store s).result <;> simp [Except.map, conclude]
  | «show» name =>
    rw [Command.conclusion, Command.action, Action.run_map, Outcome.map, Succeeds]
    cases ((Catalog.find key name).run store s).result with
    | error e => simp [Except.map, conclude]
    | ok found => cases found <;> simp [Except.map, conclude]
  | register name path description owner =>
    rw [Command.conclusion, Command.action, Action.run_map, Outcome.map, Succeeds]
    cases ((Catalog.register key ⟨name, path, description, owner⟩).run store s).result <;>
      simp [Except.map, conclude]
  | paths =>
    rw [Command.conclusion, Command.action, Action.run_map, Outcome.map, Succeeds]
    cases ((Catalog.paths key).run store s).result <;> simp [Except.map, conclude]

/-! ## Outputs -/

/-- The text that an object has under a name. -/
def textUnder (label : String) : Json → Option String
  | .obj ms =>
    match Members.find? label ms with
    | some (.str text) => some text
    | _ => none
  | _ => none

/-- What the ends of the commands have to do with the elements of the list that one of them prints.
The first element of a name is what is shown under it. -/
structure Agree (ends : Command → Exit) : Prop where
  listed : (ends (.list true)).code = 0 → ∃ items,
    Json.readDocument (ends (.list true)).output.toList = .ok (.arr items) ∧
      (∀ name, match items.find? (textUnder "name" · = some name) with
        | some item =>
          (ends (.show name)).code = 0 ∧ (ends (.show name)).output = item.toLines ++ "\n"
        | none => (ends (.show name)).code = 1) ∧
      ∃ paths, items.map (textUnder "path") = paths.map some ∧ (ends .paths).code = 0 ∧
        (ends .paths).output = pathLines paths
  unlisted : (ends (.list true)).code ≠ 0 → ∀ c, (ends c).code = 1

theorem textUnder_record_name (d : Descriptor) : textUnder "name" d.record = some d.name := rfl

/-- The element of a name in the list is the record of the descriptor that is found. -/
theorem find?_record (ds : List Descriptor) (name : String) :
    (ds.map Descriptor.record).find? (textUnder "name" · = some name) =
      (ds.find? (·.name = name)).map Descriptor.record := by
  rw [List.find?_map]
  congr 2
  funext d
  simp [Function.comp, textUnder_record_name]

/-- The commands agree if they all print what they conclude from one and the same list. -/
theorem agree_of_conclusions {σ : Type} {store : Store σ} {key : String} {s : σ}
    {ends : Command → Exit}
    (concluded : ∀ c, ∃ said, ends c = Invocation.exit said (c.conclusion store key s)) :
    Agree ends := by
  have reading {c : Command} (reads : c.Reads) {ds : List Descriptor}
      (read : (store.get key s).result.bind (listOf key) = .ok ds) :
      ∃ said, ends c = Invocation.exit said (c.conclude key (.ok (c.answer ds))) := by
    obtain ⟨said, ended⟩ := concluded c
    exact ⟨said, by rw [ended, Command.conclusion_of_reads reads read]⟩
  cases read : (store.get key s).result.bind (listOf key) with
  | ok ds =>
    obtain ⟨said, list⟩ := reading (c := .list true) trivial read
    refine ⟨fun _ => ⟨ds.map Descriptor.record, ?_, fun name => ?_, ?_⟩, fun failed => ?_⟩
    · rw [list]
      exact readDocument_jsonList ds
    · obtain ⟨said, shown⟩ := reading (c := .show name) trivial read
      rw [find?_record, shown]
      cases found : ds.find? (·.name = name) with
      | none =>
        simp only [Command.answer, found]
        rfl
      | some d =>
        simp only [Command.answer, found]
        exact ⟨rfl, rfl⟩
    · obtain ⟨said, printed⟩ := reading (c := .paths) trivial read
      refine ⟨ds.map Descriptor.path, ?_, ?_⟩
      · rw [List.map_map, List.map_map]
        rfl
      · rw [printed]
        exact ⟨rfl, rfl⟩
    · rw [list] at failed
      exact absurd rfl failed
  | error e =>
    have failed (c : Command) : (ends c).code = 1 := by
      obtain ⟨said, ended⟩ := concluded c
      rw [ended, Command.conclusion_of_error read]
      rfl
    refine ⟨fun succeeded => ?_, fun _ => failed⟩
    cases (failed (.list true)).symm.trans succeeded

/-! ## What reading leaves behind -/

/-- There are no other entries and no other files than before but for the one that a log is written
to, and what is found at a path, and under each key, is what was found there. -/
structure LeftAlone (path : Path) (n : Nat) (before after : FileSystem) : Prop where
  entries : after.entries = before.entries
  nodes : ∀ m, m ≠ n → after.node? m = before.node? m
  text : after.readText path = before.readText path
  values : ∀ key, (File.get path key after).result = (File.get path key before).result

namespace Invocation

variable (inv env time) {δ φ : Type} {g : LogFilter.Grammar δ φ} {n : Nat} {opened : FileSystem}
  {choice : LogFilter.Choice φ}

/-- The engine behind a run whose lines are added to a file. -/
theorem state_of_run (log : openLog (Locations.logPath env) e.files = (some (.file n), opened))
    (filter : g.select env.logFilter inv.logLevel = .ok choice) :
    ∃ bytes, (inv.run g env time e).2 =
      (inv.perform env time (e.setFiles opened)).state.withLines n bytes := by
  rw [run_of_opened g inv env time log filter]
  exact ⟨_, rfl⟩

/-- The run ends as its command concludes. -/
theorem exit_of_run (log : openLog (Locations.logPath env) e.files = (some (.file n), opened))
    (filter : g.select env.logFilter inv.logLevel = .ok choice) :
    ∃ said, (inv.run g env time e).1 =
      exit said (inv.perform env time (e.setFiles opened)).conclusion := by
  rw [run_of_opened g inv env time log filter]
  exact ⟨_, rfl⟩

/-- A command that reads does not change the settings file, and makes neither file nor directory. -/
theorem reading_leaves_file (reads : inv.command.Reads) (json : inv.backend = .json)
    (log : openLog (Locations.logPath env) e.files = (some (.file n), opened))
    (filter : g.select env.logFilter inv.logLevel = .ok choice)
    (apart : opened.fileNode (inv.location env) ≠ .ok n) :
    LeftAlone (inv.location env) n opened (inv.run g env time e).2.files := by
  obtain ⟨bytes, state⟩ := state_of_run inv env time log filter
  have same : (inv.perform env time (e.setFiles opened)).state = e.setFiles opened := by
    rw [perform_of_json inv env time json]
    exact (Command.makes_reading reads _ _ _).state
  have text : (opened.appendContent n bytes).readText (inv.location env) =
      opened.readText (inv.location env) := FileSystem.readText_appendContent apart
  rw [state, same]
  refine ⟨rfl, fun m ne => FileSystem.node?_appendContent_of_ne ne, text, fun key => ?_⟩
  show (File.load _ key (opened.appendContent n bytes)).map _ = (File.load _ key opened).map _
  rw [File.load, text, File.load]

end Invocation

end CommandLine

namespace Settings.DatabaseFile

open Engine Database

variable {path : Path} {base : FileSystem} {at_ : Location} {db : Database} {e s : Engine}
  {slot : Nat} {handles : List (Option Nat)}

/-- What is found under a key by a store that is opened in the database at a path. -/
def found (path : Path) (key : String) (e : Engine) : Except Error (Option Json) :=
  match (openPath path e).result with
  | .ok slot => (get slot key (openPath path e).state).result
  | .error error => .error error

/-- A database that asks for a log is not mistaken for the log of a run. -/
theorem kept_of_closed {slots : Set Nat} (kept : Kept base at_ slots db e)
    (site : Site path at_ base)
    (there : slot ∈ slots) (n : Nat) (bytes : Bytes) :
    Kept base at_ (slots \ {slot}) db ((e.close slot).withLines n bytes) := by
  obtain ⟨declared, f, shared⟩ := kept.shares there
  rcases shared.close site there with ⟨used, still⟩ | ⟨last, rests⟩
  · exact .shared still.withLines declared used
  · have none_left : slots \ {slot} = ∅ := by
      rw [last]
      exact Set.eq_empty_iff_forall_notMem.mpr fun _ inside => inside.2 inside.1
    refine .resting (rests.withLines shared.files.asks) ?_ none_left
    rw [prepared_of_logged shared.files.asks, declare_of_some (by simpa [shape?] using declared)]

theorem found_of_ready (ready : Ready path base at_ handles db e) (site : Site path at_ base)
    (key : String) : found path key e = ((db.value? key).mapError .database).bind decode := by
  obtain ⟨slot, -, opened, kept⟩ := ready.opens site e.process
  replace opened : (openPath path e).result = .ok slot := opened
  simp only [found, opened]
  exact (get_kept kept (.inl rfl) key).1

theorem get_of_ready (ready : Ready path base at_ handles db e) (used : some slot ∈ handles)
    (key : String) :
    (get slot key e).result = ((db.value? key).mapError .database).bind decode := by
  obtain ⟨i, inside, same⟩ := List.getElem_of_mem used
  have at_i : handles.getD i none = some slot := by
    rw [List.getD_eq_getElem?_getD, List.getElem?_eq_getElem inside, same]
    rfl
  obtain ⟨there, kept⟩ := ready.used at_i
  exact (get_kept kept there key).1

end Settings.DatabaseFile

namespace CommandLine.Invocation

open Engine

variable {δ φ : Type} {g : LogFilter.Grammar δ φ} (inv : Invocation) (env : Locations.Environment)
  (time : Nat) {n : Nat} {e : Engine} {opened base : FileSystem} {choice : LogFilter.Choice φ}
  {at_ : Location} {db : Database} {handles : List (Option Nat)}

/-- Behind a command that reads, the same stores are open on the same database as before. -/
theorem reading_leaves_database (reads : inv.command.Reads) (sqlite : inv.backend = .sqlite)
    (log : openLog (Locations.logPath env) e.files = (some (.file n), opened))
    (filter : g.select env.logFilter inv.logLevel = .ok choice)
    (site : Site (inv.location env) at_ base)
    (ready : DatabaseFile.Ready (inv.location env) base at_ handles db (e.setFiles opened)) :
    DatabaseFile.Ready (inv.location env) base at_ handles db (inv.run g env time e).2 := by
  obtain ⟨bytes, state⟩ := state_of_run inv env time log filter
  obtain ⟨slot, new, opens, kept⟩ : ∃ slot ∉ DatabaseFile.slotsOf handles,
      (DatabaseFile.openPath (inv.location env) (e.setFiles opened)).result = .ok slot ∧ _ :=
    ready.opens site e.process
  have own : slot ∈ insert slot (DatabaseFile.slotsOf handles) := .inl rfl
  have performed := perform_of_opened inv env time sqlite opens
  have read := (Command.makes_reading reads (DatabaseFile.store (time / 1000) slot) inv.key
    (DatabaseFile.openPath (inv.location env) (e.setFiles opened)).state).state
  have still := (DatabaseFile.get_kept kept own inv.key).2
  rw [state, performed]
  have closed := DatabaseFile.kept_of_closed (read ▸ still) site own n bytes
  exact ⟨ready.apart,
    .inl (closed.mono fun other there => ⟨.inr there, fun same => new (same ▸ there)⟩)⟩

/-- The code of every command tells whether its operation has succeeded, and nothing is printed if
it has not. What is shown, and which paths are printed, can be told from the list that is printed as
a document. Commands that read leave the settings as they find them once the log is open: a settings
file that is not the log itself, next to which nothing is made; and a database, at rest or used by
others, as far as can be told through any of the stores that are open there and one that is opened.
While the store of the run is open no file is changed at all. -/
theorem commands_agree (g : LogFilter.Grammar δ φ) (inv : Invocation) (env : Locations.Environment)
    (time : Nat) (e : Engine) {store : Store Engine} {s : Engine}
    (log : openLog (Locations.logPath env) e.files = (some (.file n), opened))
    (filter : g.select env.logFilter inv.logLevel = .ok choice)
    (opens : inv.Opens env time (e.setFiles opened) store s) :
    let path := inv.location env
    let run := fun c => { inv with command := c }.run g env time e
    (∀ c, c.Succeeds store inv.key s ∧ (run c).1.code = 0 ∨
      ¬c.Succeeds store inv.key s ∧ (run c).1.code = 1 ∧ (run c).1.output = "") ∧
    Agree (fun c => (run c).1) ∧
    ∀ c, c.Reads →
      (inv.backend = .json → opened.fileNode path ≠ .ok n →
        LeftAlone path n opened (run c).2.files ∧
          ∀ text, e.files.readText path = .ok text → (run c).2.files.readText path = .ok text) ∧
      (inv.backend = .sqlite →
        (e.Sound → ((c.action inv.key).run store s).state.files.nodes = s.files.nodes) ∧
          ∀ base at_ handles db, Site path at_ base →
            DatabaseFile.Ready path base at_ handles db (e.setFiles opened) → ∀ key,
              DatabaseFile.found path key (run c).2 =
                DatabaseFile.found path key (e.setFiles opened) ∧
              ∀ slot, some slot ∈ handles → (DatabaseFile.get slot key (run c).2).result =
                (DatabaseFile.get slot key (e.setFiles opened)).result) := by
  intro path run
  have ended (c : Command) :
      ∃ said, (run c).1 = exit said (c.conclusion store inv.key s) := by
    obtain ⟨said, same⟩ := exit_of_run { inv with command := c } env time log filter
    exact ⟨said, same.trans (congrArg (exit said) (opens.conclusion c))⟩
  have widened := widened_openLog (Locations.logPath env) e.files
  rw [log] at widened
  refine ⟨fun c => ?_, agree_of_conclusions ended, fun c reads => ⟨fun json apart => ?_,
    fun sqlite => ⟨fun sound => ?_, fun base at_ handles db site ready key => ?_⟩⟩⟩
  · obtain ⟨said, ended⟩ := ended c
    rw [Command.succeeds_iff, ended]
    rcases exit_code said (c.conclusion store inv.key s) with
      ⟨code, text, printed⟩ | ⟨code, ⟨report, failed⟩, output⟩
    · exact .inl ⟨⟨text, printed⟩, code⟩
    · refine .inr ⟨?_, code, output⟩
      rintro ⟨text, printed⟩
      cases failed.symm.trans printed
  · have left := reading_leaves_file { inv with command := c } env time reads json log filter apart
    exact ⟨left, fun text read => left.text.trans (widened.readText read)⟩
  · cases opens with
    | file json => cases json.symm.trans sqlite
    | @database slot _ opened' =>
      have held := DatabaseFile.openPath_holding
        (sound.setFiles (widened.sound sound.files) widened.nodes.length_le) path opened'
      rw [(Command.makes_reading reads _ _ _).state]
      exact (DatabaseFile.undisturbed_get held inv.key).nodes
  · have still := reading_leaves_database { inv with command := c } env time reads
      sqlite log filter site ready
    refine ⟨?_, fun slot used => ?_⟩
    · exact (DatabaseFile.found_of_ready still site key).trans
        (DatabaseFile.found_of_ready ready site key).symm
    · exact (DatabaseFile.get_of_ready still used key).trans
        (DatabaseFile.get_of_ready ready used key).symm

/-- With a settings file that is missing the commands agree, and it is missing still behind those
that read. -/
theorem commands_on_missing_file :
    let path := bytesOf "s"
    let inv : Invocation := ⟨.json, some path, "k", "info", .paths⟩
    let env : Locations.Environment := ⟨none, some (bytesOf "d"), none, none⟩
    let run := fun c =>
      { inv with command := c }.run LogFilter.Grammar.targets env 0 (.onFiles .empty)
    (∀ c, (run c).1.code = 0 ∨ (run c).1.code = 1 ∧ (run c).1.output = "") ∧
      Agree (fun c => (run c).1) ∧ (run .paths).2.files.readText path = .error .notFound := by
  dsimp only
  have filter : ∃ choice, LogFilter.Grammar.targets.select none "info" = .ok choice := ⟨_, rfl⟩
  have log : ∃ opened, openLog (Locations.logPath ⟨none, some (bytesOf "d"), none, none⟩) .empty =
      (some (.file 0), opened) ∧ opened.fileNode (bytesOf "s") = .error .notFound :=
    ⟨⟨[([bytesOf "d"], .directory), ([bytesOf "d", bytesOf "dialect-registry"], .directory),
      ([bytesOf "d", bytesOf "dialect-registry", bytesOf "dialect-registry.log"], .file 0)],
      [⟨.bytes [], FileSystem.publicMode⟩], []⟩, by decide +kernel, by decide +kernel⟩
  obtain ⟨choice, filter⟩ := filter
  obtain ⟨opened, log, missing⟩ := log
  have all := commands_agree _ ⟨.json, some (bytesOf "s"), "k", "info", .paths⟩ _ 0
    (.onFiles .empty) log filter (.file rfl)
  dsimp only [Invocation.location] at all
  refine ⟨fun c => (all.1 c).imp (·.2) (·.2), all.2.1, ?_⟩
  have left := ((all.2.2 .paths trivial).1 rfl (by rw [missing]; nofun)).1
  exact left.text.trans (by simp [FileSystem.readText, FileSystem.read, missing, Except.map])

end CommandLine.Invocation

end CobolDialects
