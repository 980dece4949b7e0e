import CobolDialects.Logging.Directive
import CobolDialects.Proofs.CommandLine.Commands
import CobolDialects.Proofs.Settings.Mirrored

/-!
# Where a log goes

Two runs, one with a log file and one without, say, start from engines that differ in a region
around the log. As long as each of them opens its log, in the file or on the error output, a command
whose settings lie away from the region ends in both alike, and the engines mirror one another
again. A run that finds the directory of its log, but cannot open the log there, is broken off.
-/

namespace CobolDialects

/-! ## Opening logs -/

/-- Files have the same numbers in both file systems. -/
def Renumbering.same : Renumbering := ⟨id, Set.univ, fun _ _ _ _ => id⟩

theorem Entry.renumbered_same (entry : Entry) : entry.renumbered .same = entry := by
  cases entry <;> rfl

theorem Connection.renumbered_same (c : Connection) : c.renumbered .same = c := by
  have log : c.log.map (LogUse.renumbered .same) = c.log := by
    cases c.log <;> rfl
  rw [Connection.renumbered, log]
  rfl

namespace FileSystem

variable {region : Set Location} {base fs fs' opened opened' : FileSystem} {r : Renumbering}
  {n : Nat} {bytes : Bytes}

/-- File systems that differ in the entries of a region only. -/
theorem mirrors_same (nodes : fs'.nodes = fs.nodes) (working : fs'.working = fs.working)
    (entry : ∀ at_ ∉ region, fs'.entry? at_ = fs.entry? at_) : Mirrors region fs .same fs fs' where
  working := working
  origin := rfl
  entry at_ outside := by
    rw [entry at_ outside]
    cases fs.entry? at_ with
    | none => rfl
    | some entry => rw [Option.map_some, Entry.renumbered_same]
  shared _ _ _ _ := trivial
  node n _ := by
    show fs'.nodes[n]? = fs.nodes[n]?
    rw [nodes]
  next k := ⟨trivial, by rw [nodes]; rfl⟩
  links _ _ _ := id

theorem Mirrors.bounded (h : Mirrors region base r fs fs') (m : Nat) (shared : m ∈ r.shared)
    (lt : m < fs.nodes.length) : r.number m < fs'.nodes.length := by
  have there : fs'.node? (r.number m) ≠ none := by
    rw [h.node m shared]
    simpa [node?] using lt
  simpa [node?] using there

theorem node?_of_prefix {m : Nat} (more : fs.nodes <+: opened.nodes) (lt : m < fs.nodes.length) :
    opened.node? m = fs.node? m := by
  obtain ⟨added, nodes⟩ := more
  rw [node?, node?, ← nodes, List.getElem?_append_left lt]

/-- How files are numbered when either file system has got more of them, which they do not share. -/
def Mirrors.opening (h : Mirrors region base r fs fs') (more : fs.nodes <+: opened.nodes)
    (more' : fs'.nodes <+: opened'.nodes) : Renumbering where
  number m :=
    if m < fs.nodes.length then r.number m else opened'.nodes.length + (m - opened.nodes.length)
  shared := {m | m ∈ r.shared ∧ m < fs.nodes.length ∨ opened.nodes.length ≤ m}
  injective := by
    have le := more.length_le
    have le' := more'.length_le
    rintro m (⟨shared, lt⟩ | ge) n (⟨shared', lt'⟩ | ge') same
    · rw [if_pos lt, if_pos lt'] at same
      exact r.injective m shared n shared' same
    · rw [if_pos lt, if_neg (by omega)] at same
      have below := h.bounded m shared lt
      omega
    · rw [if_neg (by omega), if_pos lt'] at same
      have below := h.bounded n shared' lt'
      omega
    · rw [if_neg (by omega), if_neg (by omega)] at same
      omega

section Opening

variable {m : Nat} (h : Mirrors region base r fs fs') (more : fs.nodes <+: opened.nodes)
  (more' : fs'.nodes <+: opened'.nodes)

theorem Mirrors.opening_of_lt (lt : m < fs.nodes.length) (shared : m ∈ r.shared) :
    m ∈ (h.opening more more').shared ∧ (h.opening more more').number m = r.number m :=
  ⟨.inl ⟨shared, lt⟩, if_pos lt⟩

theorem Mirrors.opening_of_ge (ge : opened.nodes.length ≤ m) :
    m ∈ (h.opening more more').shared ∧
      (h.opening more more').number m = opened'.nodes.length + (m - opened.nodes.length) :=
  ⟨.inr ge, if_neg (Nat.not_lt.mpr (more.length_le.trans ge))⟩

end Opening

/-- What is made in a region does not matter outside. -/
theorem Mirrors.widened (h : Mirrors region base r fs fs') (sound : fs.Sound)
    (more : Widened fs opened) (more' : Widened fs' opened')
    (around : ∀ at_ ∉ region, opened.entry? at_ = fs.entry? at_)
    (around' : ∀ at_ ∉ region, opened'.entry? at_ = fs'.entry? at_) :
    Mirrors region base (h.opening more.nodes more'.nodes) opened opened' where
  working := by rw [more.working, more'.working, h.working]
  origin := h.origin.trans more.working.symm
  entry at_ outside := by
    rw [around at_ outside, around' at_ outside, h.entry at_ outside]
    cases there : fs.entry? at_ with
    | none => rfl
    | some entry =>
      cases entry with
      | directory | link => rfl
      | file n =>
        have same := (h.opening_of_lt more.nodes more'.nodes (sound.lt_of_entry there)
          (h.shared at_ outside n there)).2
        exact congrArg (fun n => some (Entry.file n)) same.symm
  shared at_ outside n file := by
    have there := (around at_ outside).symm.trans file
    exact (h.opening_of_lt _ _ (sound.lt_of_entry there) (h.shared at_ outside n there)).1
  node m shared := by
    rcases shared with ⟨shared, lt⟩ | ge
    · rw [(h.opening_of_lt _ _ lt shared).2, node?_of_prefix more'.nodes (h.bounded m shared lt),
        node?_of_prefix more.nodes lt, h.node m shared]
    · rw [(h.opening_of_ge _ _ ge).2, node?, node?, List.getElem?_eq_none ge,
        List.getElem?_eq_none (Nat.le_add_right _ _)]
  next k := by
    obtain ⟨shared, number⟩ := h.opening_of_ge more.nodes more'.nodes
      (Nat.le_add_right opened.nodes.length k)
    exact ⟨shared, by rw [number]; omega⟩
  links at_ outside target link := h.links at_ outside target ((around at_ outside).symm.trans link)

theorem Sound.lt_of_openFile {p : Path} (sound : fs.Sound) (h : fs.openFile p = .ok (n, opened)) :
    n < opened.nodes.length := by
  unfold openFile at h
  split at h
  · cases h
  · cases h
  · rename_i walked _
    cases h
    exact sound.lt_of_entry (fits_of_walkLinks walked)
  · cases h
  · cases h
    simp

/-! ## Writing to logs -/

/-- A log file is none of those that two file systems share. -/
theorem Mirrors.appendLeft (h : Mirrors region base r fs fs') (own : n ∉ r.shared) (bytes : Bytes) :
    Mirrors region base r (fs.appendContent n bytes) fs' where
  working := h.working
  origin := h.origin
  entry := h.entry
  shared := h.shared
  node m shared := by
    rw [node?_appendContent_of_ne (ne_of_mem_of_not_mem shared own)]
    exact h.node m shared
  next k := by
    rw [length_appendContent]
    exact h.next k
  links := h.links

theorem Mirrors.appendRight (h : Mirrors region base r fs fs')
    (own : ∀ m ∈ r.shared, r.number m ≠ n)
    (bytes : Bytes) : Mirrors region base r fs (fs'.appendContent n bytes) where
  working := h.working
  origin := h.origin
  entry := h.entry
  shared := h.shared
  node m shared := by
    rw [node?_appendContent_of_ne (own m shared)]
    exact h.node m shared
  next k := by
    rw [length_appendContent]
    exact h.next k
  links := h.links

end FileSystem

namespace Engine

variable {region : Set Location} {base fs' opened opened' : FileSystem} {r : Renumbering}
  {first : Nat} {e e' : Engine}

/-- The same engine on files that are different in a region only. -/
theorem mirrors_same (nodes : fs'.nodes = e.files.nodes) (working : fs'.working = e.files.working)
    (entry : ∀ at_ ∉ region, fs'.entry? at_ = e.files.entry? at_) :
    Mirrors region e.files .same e.connections.length e (e.setFiles fs') where
  files := FileSystem.mirrors_same nodes working entry
  connections := by
    refine (List.map_id'' (fun c? => ?_) _).symm
    cases c? with
    | none => rfl
    | some c => exact congrArg some c.renumbered_same
  named := (List.map_id'' (fun _ => rfl) _).symm
  process := rfl
  shared c _ := ⟨trivial, fun _ _ => ⟨trivial, trivial⟩⟩
  sharedNamed d _ := trivial
  fewer := Nat.le_refl _
  apart i c at_ le open_ := by
    rw [Engine.connection?, List.getD_eq_getElem?_getD, List.getElem?_eq_none le] at open_
    cases open_

/-- Whatever an engine holds on to is there. -/
structure Complete (e : Engine) : Prop where
  files : e.files.Sound
  connections : ∀ c, some c ∈ e.connections → c.file < e.files.nodes.length ∧
    ∀ use, c.log = some use → use.log < e.files.nodes.length ∧ use.index < e.files.nodes.length
  named : ∀ d ∈ e.named, d.file < e.files.nodes.length

theorem complete_onFiles {fs : FileSystem} (h : fs.Sound) : (onFiles fs).Complete where
  files := h
  connections c there := by cases there
  named d there := by cases there

theorem Mirrors.widened (h : Mirrors region base r first e e') (complete : e.Complete)
    (more : FileSystem.Widened e.files opened) (more' : FileSystem.Widened e'.files opened')
    (around : ∀ at_ ∉ region, opened.entry? at_ = e.files.entry? at_)
    (around' : ∀ at_ ∉ region, opened'.entry? at_ = e'.files.entry? at_) :
    Mirrors region base (h.files.opening more.nodes more'.nodes) first (e.setFiles opened)
      (e'.setFiles opened') := by
  have kept {n : Nat} (lt : n < e.files.nodes.length) (shared : n ∈ r.shared) :=
    h.files.opening_of_lt more.nodes more'.nodes lt shared
  have keptUse {c : Connection} {use : LogUse} (there : some c ∈ e.connections)
      (log : c.log = some use) : use.Shared (h.files.opening more.nodes more'.nodes) ∧
        use.renumbered (h.files.opening more.nodes more'.nodes) = use.renumbered r := by
    obtain ⟨logLt, indexLt⟩ := (complete.connections c there).2 use log
    have shared := (h.shared c there).log use log
    obtain ⟨logShared, logSame⟩ := kept logLt shared.log
    obtain ⟨indexShared, indexSame⟩ := kept indexLt shared.index
    exact ⟨⟨logShared, indexShared⟩,
      by rw [LogUse.renumbered, logSame, indexSame, LogUse.renumbered]⟩
  exact {
    files := h.files.widened complete.files more more' around around'
    connections := by
      show e'.connections = e.connections.map _
      rw [h.connections]
      refine List.map_congr_left fun c? there => ?_
      cases c? with
      | none => rfl
      | some c =>
        have file := (kept (complete.connections c there).1 (h.shared c there).file).2
        have log : c.log.map (LogUse.renumbered r) =
            c.log.map (LogUse.renumbered (h.files.opening more.nodes more'.nodes)) :=
          Option.map_congr fun use log => (keptUse there log).2.symm
        simp only [Option.map_some, Connection.renumbered, file, log]
    named := by
      show e'.named = e.named.map _
      rw [h.named]
      refine List.map_congr_left fun d there => ?_
      rw [NamedDatabase.renumbered, NamedDatabase.renumbered,
        (kept (complete.named d there) (h.sharedNamed d there)).2]
    process := h.process
    shared := fun c there => ⟨(kept (complete.connections c there).1 (h.shared c there).file).1,
      fun use log => (keptUse there log).1⟩
    sharedNamed := fun d there => (kept (complete.named d there) (h.sharedNamed d there)).1
    fewer := h.fewer
    apart := h.apart }

end Engine

namespace CommandLine

open Settings

variable {region : Set Location} {base fs : FileSystem} {r : Renumbering} {first : Nat}
  {e e' : Engine} {path : Path} {sink sink' : Sink} {inv : Invocation} {env : Locations.Environment}
  {time : Nat}

theorem lt_of_openLog {n : Nat} (sound : fs.Sound) (log : (openLog path fs).1 = some (.file n)) :
    n < (openLog path fs).2.nodes.length := by
  have made := (@FileSystem.grown_makeDirectories fs (path.directory?.getD [])).widened.sound sound
  unfold openLog at log ⊢
  split at log
  · cases log
  · rename_i done
    rw [done] at made
    split at log
    · rename_i opens
      cases log
      exact FileSystem.Sound.lt_of_openFile made opens
    · cases log

/-- Two engines on which a log is opened, be it in a file or on the error output. They differ in a
region, in which the logs are, and if these are files the two engines do not share them. -/
structure TwoLogs (path : Path) (region : Set Location) (r : Renumbering) (e e' : Engine)
    (sink sink' : Sink) : Prop where
  mirrors : Engine.Mirrors region e.files r e.connections.length e e'
  complete : e.Complete
  sound : e'.files.Sound
  log : (openLog path e.files).1 = some sink
  log' : (openLog path e'.files).1 = some sink'
  around : ∀ at_ ∉ region, FileSystem.entry? (openLog path e.files).2 at_ = e.files.entry? at_
  around' : ∀ at_ ∉ region, FileSystem.entry? (openLog path e'.files).2 at_ = e'.files.entry? at_
  own : ∀ n < e.files.nodes.length, sink = .file n → n ∉ r.shared
  own' : ∀ n, sink' = .file n → ∀ m ∈ r.shared, m < e.files.nodes.length → r.number m ≠ n

/-- Once the logs are open, neither of them is a file that the engines share. -/
theorem TwoLogs.opened (two : TwoLogs path region r e e' sink sink') :
    ∃ r', Engine.Mirrors region e.files r' e.connections.length
        (e.setFiles (openLog path e.files).2) (e'.setFiles (openLog path e'.files).2) ∧
      (∀ n, sink = .file n → n ∉ r'.shared) ∧
      ∀ n, sink' = .file n → ∀ m ∈ r'.shared, r'.number m ≠ n := by
  have more := widened_openLog path e.files
  have more' := widened_openLog path e'.files
  have files := two.mirrors.files
  refine ⟨files.opening more.nodes more'.nodes,
    two.mirrors.widened two.complete more more' two.around two.around', ?_, ?_⟩
  · rintro n rfl (⟨shared, lt⟩ | ge)
    · exact two.own n lt rfl shared
    · exact absurd (lt_of_openLog two.complete.files two.log) (Nat.not_lt.mpr ge)
  · rintro n rfl m (⟨shared, lt⟩ | ge) same
    · rw [(files.opening_of_lt more.nodes more'.nodes lt shared).2] at same
      exact two.own' n rfl m shared lt same
    · have inside := lt_of_openLog two.sound two.log'
      rw [(files.opening_of_ge more.nodes more'.nodes ge).2] at same
      omega

theorem Sink.write_mirrored (h : Engine.Mirrors region base r first e e')
    (own : ∀ n, sink = .file n → n ∉ r.shared)
    (own' : ∀ n, sink' = .file n → ∀ m ∈ r.shared, r.number m ≠ n) (lines lines' : String) :
    Engine.Mirrors region base r first (e.setFiles (sink.write lines e.files))
      (e'.setFiles (sink'.write lines' e'.files)) := by
  have left : FileSystem.Mirrors region base r (sink.write lines e.files) e'.files := by
    cases sink with
    | file n => exact h.files.appendLeft (own n rfl) _
    | errors => exact h.files
  refine h.setFiles ?_
  cases sink' with
  | file n => exact left.appendRight (own' n rfl) _
  | errors => exact left

namespace Invocation

/-- What a run looks at for its settings lies away from the region. -/
def Elsewhere (inv : Invocation) (region : Set Location) (base fs : FileSystem) (path : Path) :
    Prop :=
  match inv.backend with
  | .json => File.Elsewhere region base path
  | .sqlite => DatabaseFile.Elsewhere region base fs path

/-- What is found under a key in the settings of a run, by a store that is opened there. -/
def found (inv : Invocation) (path : Path) (key : String) (e : Engine) :
    Except Error (Option Json) :=
  match inv.backend with
  | .json => (File.get path key e.files).result
  | .sqlite => DatabaseFile.found path key e

theorem act_mirrored (inv : Invocation) {store : Store Engine}
    (follows : store.Follows store fun e' e => Engine.Mirrors region base r first e e')
    (h : Engine.Mirrors region base r first e e') :
    (inv.act store e').conclusion = (inv.act store e).conclusion ∧
      Engine.Mirrors region base r first (inv.act store e).state (inv.act store e').state := by
  obtain ⟨same, still⟩ := follows.run (inv.command.action inv.key) h
  exact ⟨congrArg (inv.command.conclude inv.key) same, still⟩

theorem perform_mirrored (inv : Invocation) (env : Locations.Environment) (time : Nat)
    (h : Engine.Mirrors region base r first e e')
    (elsewhere : inv.Elsewhere region base e.files (inv.location env)) :
    (inv.perform env time e').conclusion = (inv.perform env time e).conclusion ∧
      Engine.Mirrors region base r first (inv.perform env time e).state
        (inv.perform env time e').state := by
  cases backend : inv.backend with
  | json =>
    simp only [Elsewhere, backend] at elsewhere
    rw [perform_of_json inv env time backend, perform_of_json inv env time backend]
    exact act_mirrored inv (File.mirrored elsewhere) h
  | sqlite =>
    simp only [Elsewhere, backend] at elsewhere
    obtain ⟨same, still, own⟩ := DatabaseFile.mirrored_openPath h elsewhere
    simp only [perform, backend]
    cases opened : (DatabaseFile.openPath (inv.location env) e).result with
    | error error =>
      rw [opened] at same
      rw [same]
      exact ⟨rfl, still⟩
    | ok slot =>
      rw [opened] at same
      rw [same]
      obtain ⟨conclusion, behind⟩ :=
        act_mirrored inv (DatabaseFile.mirrored (time / 1000) (own slot opened)) still
      exact ⟨conclusion, behind.close (own slot opened)⟩

theorem found_mirrored (h : Engine.Mirrors region base r first e e')
    (elsewhere : inv.Elsewhere region base e.files path) (key : String) :
    inv.found path key e' = inv.found path key e := by
  cases backend : inv.backend with
  | json =>
    simp only [Elsewhere, backend] at elsewhere
    simp only [found, backend]
    exact congrArg (Except.map _) (File.mirrored_load h.files elsewhere.way key)
  | sqlite =>
    simp only [Elsewhere, backend] at elsewhere
    obtain ⟨same, still, own⟩ := DatabaseFile.mirrored_openPath h elsewhere
    simp only [found, backend, DatabaseFile.found, same]
    cases opened : (DatabaseFile.openPath path e).result with
    | error error => rfl
    | ok slot => exact ((DatabaseFile.mirrored 0 (own slot opened)).get key still).1

/-- A run that opens its log comes to one and the same whether its lines go to a file or to the
error output, and whatever else is around the log, as long as the settings are elsewhere: it ends
with the same code, prints the same, and leaves the same files behind, but for the logs, so that the
same is found in the settings. A run that finds the directory of its log, or makes it, but cannot
open the log there is broken off before anything is done about the settings. -/
theorem log_decides_nothing {δ φ : Type} (g : LogFilter.Grammar δ φ) (inv : Invocation)
    (env : Locations.Environment) (time : Nat) :
    let log := Locations.logPath env
    let path := inv.location env
    (∀ region r e e' sink sink', TwoLogs log region r e e' sink sink' →
      inv.Elsewhere region e.files (openLog log e.files).2 path →
        let run := inv.run g env time e
        let run' := inv.run g env time e'
        run'.1.code = run.1.code ∧ run'.1.output = run.1.output ∧
          (∃ r', Engine.Mirrors region e.files r' e.connections.length run.2 run'.2) ∧
          (inv.Elsewhere region e.files run.2.files path →
            ∀ key, inv.found path key run'.2 = inv.found path key run.2)) ∧
    ∀ e made fault, e.files.makeDirectories (log.directory?.getD []) = (.ok (), made) →
      made.openFile log = .error fault →
        inv.run g env time e = (.brokenOff, e.setFiles made) ∧ made.Grown e.files := by
  intro log path
  refine ⟨fun region r e e' sink sink' two elsewhere => ?_, fun e made fault done refused => ?_⟩
  · obtain ⟨r', mirrors, own, own'⟩ := two.opened
    have log : openLog log e.files = (some sink, (openLog log e.files).2) := Prod.ext two.log rfl
    have log' : openLog _ e'.files = (some sink', _) := Prod.ext two.log' rfl
    have ended : (inv.run g env time e').1.code = (inv.run g env time e).1.code ∧
        (inv.run g env time e').1.output = (inv.run g env time e).1.output ∧
        Engine.Mirrors region e.files r' e.connections.length (inv.run g env time e).2
          (inv.run g env time e').2 := by
      cases filter : g.select env.logFilter inv.logLevel with
      | error failure =>
        rw [run_of_unreadable g inv env time log filter,
          run_of_unreadable g inv env time log' filter]
        exact ⟨rfl, rfl, mirrors⟩
      | ok choice =>
        obtain ⟨conclusion, behind⟩ := perform_mirrored inv env time mirrors elsewhere
        rw [run_of_opened g inv env time log filter,
          run_of_opened g inv env time log' filter, conclusion]
        exact ⟨(exit_said _ _ _).1, (exit_said _ _ _).2, Sink.write_mirrored behind own own' _ _⟩
    obtain ⟨code, output, still⟩ := ended
    exact ⟨code, output, ⟨r', still⟩, fun elsewhere key => found_mirrored still elsewhere key⟩
  · have unopened : openLog log e.files = (none, made) := by simp only [openLog, done, refused]
    have grown := @FileSystem.grown_makeDirectories e.files (log.directory?.getD [])
    rw [done] at grown
    exact ⟨run_of_unopened g inv env time unopened, grown⟩

/-! ### A file, or a directory, in the way of a log -/

/-- A data directory and what is below it, with the settings beside it. -/
def dataWith (below : List (Location × Entry)) : FileSystem :=
  ⟨([bytesOf "d"], .directory) :: below, [⟨.bytes [], 0⟩], []⟩

/-- The directory of the log. -/
def logPlace : Location := [bytesOf "d", bytesOf "dialect-registry"]

def belowPlace : Set Location := {at_ | logPlace <+: at_}

theorem entry?_dataWith {below : List (Location × Entry)} {nodes : List Node} {at_ : Location}
    (inside : ∀ e ∈ below, e.1 ∈ belowPlace) (outside : at_ ∉ belowPlace) :
    FileSystem.entry? { dataWith below with nodes } at_ = FileSystem.entry? (dataWith []) at_ := by
  have none : below.lookup at_ = none := by
    refine List.lookup_eq_none_iff.mpr fun e there => ?_
    have ne : at_ ≠ e.1 := fun same => outside (same ▸ inside e there)
    simpa using ne
  simp only [FileSystem.entry?, dataWith, List.lookup_cons, none, List.lookup_nil]

/-- Whatever is below the data directory, a run that finds its log in the way does as one that does
not. -/
theorem twoLogs_dataWith {path : Path} {below : List (Location × Entry)}
    (opened : List (Location × Entry)) (nodes : List Node) (inside : ∀ e ∈ below, e.1 ∈ belowPlace)
    (insideOpened : ∀ e ∈ opened, e.1 ∈ belowPlace) (sound : (dataWith below).Sound)
    (log : openLog path (dataWith below) = (some .errors, dataWith below))
    (log' : openLog path (dataWith []) = (some (.file 1), { dataWith opened with nodes })) :
    TwoLogs path belowPlace .same (.onFiles (dataWith below)) (.onFiles (dataWith [])) .errors
      (.file 1) where
  mirrors := Engine.mirrors_same (e := .onFiles (dataWith below)) rfl rfl fun at_ outside =>
    (entry?_dataWith inside outside).symm
  complete := Engine.complete_onFiles sound
  sound at_ n there := by
    rcases List.mem_singleton.mp there with ⟨⟩
  log := by
    show (openLog path (dataWith below)).1 = _
    rw [log]
  log' := by
    show (openLog path (dataWith [])).1 = _
    rw [log']
  around at_ _ := by
    show FileSystem.entry? (openLog path (dataWith below)).2 at_ = _
    rw [log]
    rfl
  around' at_ outside := by
    show FileSystem.entry? (openLog path (dataWith [])).2 at_ = _
    rw [log', entry?_dataWith insideOpened outside]
    rfl
  own := nofun
  own' := by
    rintro n ⟨⟩ m - lt
    exact Nat.ne_of_lt lt

section Elsewhere

variable {below : List (Location × Entry)} {name : Name} {at_ : Location}
  (noLink : ∀ at_ target, (at_, Entry.link target) ∉ below)

include noLink

theorem ne_link_dataWith {target : Path} :
    FileSystem.entry? (dataWith below) at_ ≠ some (.link target) := by
  intro link
  by_cases root : at_ = []
  · subst root
    cases link
  · rcases List.mem_cons.mp (FileSystem.mem_of_entry root link) with data | there
    · cases data
    · exact noLink _ _ there

/-- A name in the working directory leads nowhere below the data directory. -/
theorem outside_of_visits (visited : FileSystem.Visits (dataWith below) [] [name] at_) :
    at_ ∉ belowPlace := by
  cases visited with
  | dot next => cases next
  | up next => cases next
  | name =>
    intro inside
    have le := List.IsPrefix.length_le inside
    simp [logPlace] at le
  | into proper next => cases next
  | through proper link next => exact absurd link (ne_link_dataWith noLink)

theorem away_dataWith {p : Path} (start : (dataWith below).start p = [])
    (steps : p.steps = [name]) :
    (dataWith below).Away belowPlace p := by
  intro at_ visited
  rw [start, steps] at visited
  exact outside_of_visits noLink visited

/-- Settings in the working directory lie away from what is below the data directory. -/
theorem elsewhere_file : File.Elsewhere belowPlace (dataWith below) (bytesOf "s") := by
  have dir : (Path.directory? (bytesOf "s")).getD Path.dot = Path.dot := by decide +kernel
  have names : Path.names Path.dot = [Path.dot] := by decide +kernel
  have steps : Path.steps (bytesOf "s") = [bytesOf "s"] := by decide +kernel
  refine ⟨away_dataWith noLink rfl steps, fun k at_ visited => ?_⟩
  rw [dir, names] at visited
  cases visited with
  | dot next => exact outside_of_visits noLink next
  | name notDot => exact absurd rfl notDot
  | into proper => exact absurd rfl proper.notDot
  | through proper => exact absurd rfl proper.notDot

theorem elsewhere_database
    (located : (dataWith below).locate? (bytesOf "s") = some [bytesOf "s"]) :
    DatabaseFile.Elsewhere belowPlace (dataWith below) (dataWith below) (bytesOf "s") where
  way := by
    have steps : Path.steps (bytesOf "s") = [bytesOf "s"] := by decide +kernel
    exact away_dataWith noLink rfl steps
  file a address _ := by
    have plain : Database.Address.read (bytesOf "s") = .ok (.ofPath (bytesOf "s")) := by
      decide +kernel
    obtain rfl := Except.ok.inj (plain.symm.trans address)
    have none : (Path.directory? (bytesOf "s")).getD [] = [] := by decide +kernel
    have names : Path.names (bytesOf "s") = [bytesOf "s"] := by decide +kernel
    have one : ∀ place ∈ Engine.besides [bytesOf "s"],
        place.length = 1 ∧ place.path.steps = place := by decide +kernel
    have away : ∀ place ∈ Engine.besides [bytesOf "s"], place ∉ belowPlace ∧
        (dataWith below).Away belowPlace place.path := by
      intro place there
      obtain ⟨length, steps⟩ := one place there
      obtain ⟨name, rfl⟩ := List.length_eq_one_iff.mp length
      refine ⟨fun inside => ?_, away_dataWith noLink (by simp [FileSystem.start, dataWith]) steps⟩
      have le := List.IsPrefix.length_le inside
      simp [logPlace] at le
    rw [none, FileSystem.makeDirectories, if_pos rfl]
    refine ⟨fun at_ follows => ?_, fun at_ there => ?_, fun _ no => by cases no⟩
    · change FileSystem.Follows (dataWith below) [] (Path.names (bytesOf "s")) at_ at follows
      rw [names] at follows
      cases follows with
      | name => exact (away _ List.mem_cons_self).2
      | into next => cases next
      | through link next =>
        obtain ⟨-, walk⟩ := FileSystem.find_eq_ok.mp link
        exact absurd (FileSystem.fits_of_walkLinks walk) (ne_link_dataWith noLink)
    · obtain rfl := Option.some.inj (located.symm.trans there)
      exact away

end Elsewhere

/-- Where a file is in the place of the log's directory, runs on either store do as where that can
be made; where a directory is in the place of the log itself, they are broken off. -/
theorem runs_around_log :
    let g := LogFilter.Grammar.targets
    let inv : Invocation := ⟨.json, some (bytesOf "s"), "k", "info", .register "a" "b" "c" "d"⟩
    let other : Invocation := { inv with backend := .sqlite }
    let env : Locations.Environment := ⟨none, some (bytesOf "d"), none, none⟩
    let blocked : Engine := .onFiles (dataWith [(logPlace, .file 0)])
    let clear : Engine := .onFiles (dataWith [])
    let taken : Engine := .onFiles (dataWith [(logPlace, .directory),
      (logPlace ++ [bytesOf "dialect-registry.log"], .directory)])
    (inv.run g env 0 clear).1.code = (inv.run g env 0 blocked).1.code ∧
      (inv.run g env 0 clear).1.output = (inv.run g env 0 blocked).1.output ∧
      (∀ key, inv.found (inv.location env) key (inv.run g env 0 clear).2 =
        inv.found (inv.location env) key (inv.run g env 0 blocked).2) ∧
      (inv.run g env 0 taken).1 = .brokenOff ∧
      (other.run g env 0 clear).1.code = (other.run g env 0 blocked).1.code ∧
      (other.run g env 0 clear).1.output = (other.run g env 0 blocked).1.output := by
  intro g inv other env blocked clear taken
  have log : openLog (Locations.logPath env) (dataWith [(logPlace, .file 0)]) =
      (some .errors, dataWith [(logPlace, .file 0)]) := by decide +kernel
  have two : TwoLogs (Locations.logPath env) belowPlace .same blocked clear .errors (.file 1) :=
    twoLogs_dataWith
      [(logPlace, .directory), (logPlace ++ [bytesOf "dialect-registry.log"], .file 1)]
      [⟨.bytes [], 0⟩, ⟨.bytes [], FileSystem.publicMode⟩] (by simp [belowPlace])
      (by simp [belowPlace]) (by simp [FileSystem.Sound, dataWith]) log (by decide +kernel)
  have noLink : ∀ at_ target, (at_, Entry.link target) ∉ [(logPlace, Entry.file 0)] := by simp
  obtain ⟨same, broken⟩ := log_decides_nothing g inv env 0
  have elsewhere (fs : FileSystem) :
      inv.Elsewhere belowPlace blocked.files fs (inv.location env) := by
    have location : inv.location env = bytesOf "s" := rfl
    rw [location]
    exact elsewhere_file noLink
  have inFile := same _ _ _ _ _ _ two (elsewhere _)
  dsimp only at inFile
  obtain ⟨code, output, -, found⟩ := inFile
  have done : taken.files.makeDirectories ((Locations.logPath env).directory?.getD []) =
      (.ok (), taken.files) := by decide +kernel
  have refused : taken.files.openFile (Locations.logPath env) = .error .isDirectory := by
    decide +kernel
  have ended := (broken taken _ _ done refused).1
  have elsewhere' : other.Elsewhere belowPlace blocked.files
      (openLog (Locations.logPath env) blocked.files).2 (other.location env) := by
    have location : other.location env = bytesOf "s" := rfl
    have left : (openLog (Locations.logPath env) blocked.files).2 = blocked.files :=
      congrArg Prod.snd log
    rw [location, left]
    exact elsewhere_database noLink (by decide +kernel)
  have inDatabase := (log_decides_nothing g other env 0).1 _ _ _ _ _ _ two elsewhere'
  dsimp only at inDatabase
  rw [ended]
  exact ⟨code, output, found (elsewhere _), rfl, inDatabase.1, inDatabase.2.1⟩

end Invocation

end CommandLine

end CobolDialects
