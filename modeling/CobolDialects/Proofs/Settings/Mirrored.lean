import CobolDialects.Proofs.Engine.MirroredStatements
import CobolDialects.Proofs.Settings.DatabaseFile
import CobolDialects.Proofs.Settings.Parents
import CobolDialects.Proofs.Settings.Supply
import CobolDialects.Proofs.Settings.Temporaries

/-!
# Stores on engines that mirror one another

A store whose settings lie away from the region answers alike on engines that mirror one another,
and leaves them so: a settings file with the temporary files beside it, or a database with all that
an engine looks at to connect to it.
-/

namespace CobolDialects.Settings

variable {region : Set Location} {base fs fs' : FileSystem} {r : Renumbering} {first : Nat}
  {e e' : Engine} {file : Path} {dir : Location}

namespace File

open FileSystem

/-! ## Saving a settings file -/

/-- A save that nothing is refused without need comes down to the move at its end. -/
theorem save_none (file : Path) (settings : Members) (fs : FileSystem) :
    save .none file settings fs =
      match makeParents file fs with
      | (.error fault, made) => (.error fault, made)
      | (.ok dir, made) =>
        match (ready file (document settings) dir made).rename (temporaryAt file dir made) file with
        | .ok moved => (.ok (), moved)
        | .error fault =>
          (.error fault,
            (ready file (document settings) dir made).removeEntry (temporaryAt file dir made)) := by
  unfold save
  rcases makeParents file fs with ⟨_ | dir, made⟩
  · rfl
  · show publish .none ⟨temporaryAt file dir made, made.nodes.length⟩ file
      (ready file (document settings) dir made) = _
    unfold publish
    simp only [Refusals.none, refusing]
    cases (ready file (document settings) dir made).rename (temporaryAt file dir made) file <;> rfl

/-- A settings file lies away from the region, and so do the temporary files that are made beside
it. -/
structure Elsewhere (region : Set Location) (base : FileSystem) (file : Path) : Prop where
  way : base.Away region file
  temporaries : let dir := file.directory?.getD Path.dot
    ∀ k, base.AwayFrom region (base.start dir) (dir.names ++ [temporaryName k])

theorem mirrored_makeParents (h : FileSystem.Mirrors region base r fs fs')
    (elsewhere : Elsewhere region base file) :
    (makeParents file fs').1 = (makeParents file fs).1 ∧
      FileSystem.Mirrors region base r (makeParents file fs).2 (makeParents file fs').2 := by
  have away : base.Away region (file.directory?.getD Path.dot) :=
    away_of_names (elsewhere.temporaries 0).of_append
  cases directory : file.directory? with
  | none =>
    rw [directory] at away
    rw [makeParents_of_none directory, makeParents_of_none directory]
    exact ⟨h.directory (h.away away), h⟩
  | some dir =>
    rw [directory] at away
    have above : ∀ q ∈ chain dir, base.Away region q := fun q inside =>
      away_of_isChain (isChain_chain_directory? directory) away inside
    obtain ⟨same, still⟩ := h.makeChain above
    rw [makeParents_of_some directory, makeParents_of_some directory]
    generalize fs.makeChain (chain dir) = o at same still ⊢
    generalize fs'.makeChain (chain dir) = o' at same still ⊢
    obtain ⟨result, made⟩ := o
    obtain ⟨result', made'⟩ := o'
    obtain rfl : result' = result := same
    cases result' with
    | error fault => exact ⟨rfl, still⟩
    | ok => exact ⟨still.directory (still.away away), still⟩

/-- The temporary files lie outside the region, in whichever directory they are made. -/
theorem Elsewhere.outside (elsewhere : Elsewhere region base file)
    (h : FileSystem.Mirrors region base r fs fs')
    (found : fs.directory (file.directory?.getD Path.dot) = .ok dir) (k : Nat) :
    dir ++ [temporaryName k] ∉ region := by
  have way := h.awayFrom (elsewhere.temporaries k)
  generalize file.directory?.getD Path.dot = parent at found way
  unfold FileSystem.directory at found
  split at found
  · cases found
  · rename_i at_ there
    cases found
    obtain ⟨-, walk⟩ := find_eq_ok.mp there
    obtain ⟨used, -, leads⟩ := leads_of_walkLinks (trailingSlash_not_mem_steps parent) walk
    have name : Visits fs dir [temporaryName k] (dir ++ [temporaryName k]) :=
      .name (fun same => not_isTemporary_dot ⟨k, same.symm⟩)
        fun same => not_isTemporary_dotDot ⟨k, same.symm⟩
    refine way _ ((leads.visits name).congr ?_)
    rw [List.filter_append, List.filter_append, filter_steps]
  · cases found

theorem directory_of_makeParents {made : FileSystem} (h : makeParents file fs = (.ok dir, made)) :
    made.directory (file.directory?.getD Path.dot) = .ok dir := by
  unfold makeParents at h
  simp only at h
  split at h
  · cases (Prod.mk.inj h).1
  · obtain ⟨found, rfl⟩ := Prod.mk.inj h
    exact found

theorem mirrored_save (h : FileSystem.Mirrors region base r fs fs')
    (elsewhere : Elsewhere region base file) (settings : Members) :
    (save .none file settings fs').1 = (save .none file settings fs).1 ∧
      FileSystem.Mirrors region base r (save .none file settings fs).2
        (save .none file settings fs').2 := by
  obtain ⟨same, still⟩ := mirrored_makeParents h elsewhere
  rw [save_none, save_none]
  rcases parents : makeParents file fs with ⟨result, made⟩
  rcases parents' : makeParents file fs' with ⟨result', made'⟩
  rw [parents, parents'] at same still
  obtain rfl : result' = result := same
  cases result' with
  | error fault => exact ⟨rfl, still⟩
  | ok dir =>
    have outside := elsewhere.outside still (directory_of_makeParents parents)
    have name : temporaryAt file dir made' = temporaryAt file dir made := by
      rw [temporaryAt, temporaryAt, still.freshName outside]
    obtain ⟨shared, number⟩ := still.fresh
    have before : FileSystem.Mirrors region base r (ready file (document settings) dir made)
        (ready file (document settings) dir made') := by
      rw [ready, ready, name, ← number]
      exact (still.addFile _ _).setContent shared _
    have temporary : entry? (ready file (document settings) dir made) (temporaryAt file dir made) =
        some (.file made.nodes.length) := by rw [entry?_ready, if_pos rfl]
    have out : temporaryAt file dir made ∉ region := by
      obtain ⟨k, fresh⟩ := isTemporary_freshName made dir file.names.getLast?
      rw [temporaryAt, fresh]
      exact outside k
    dsimp only
    rw [name]
    rcases before.rename (before.away elsewhere.way) out temporary with
      ⟨fault, refused, refused'⟩ | ⟨moved, moved', done, done', behind⟩
    · rw [refused, refused']
      exact ⟨rfl, before.removeEntry (ne_nil_of_file temporary)⟩
    · rw [done, done']
      exact ⟨rfl, behind⟩

/-! ## The store -/

theorem mirrored_load (h : FileSystem.Mirrors region base r fs fs') (away : base.Away region file)
    (key : String) : load file key fs' = load file key fs := by
  unfold load
  rw [h.readText (h.away away)]

/-- A settings file is read and written alike. -/
theorem mirrored (elsewhere : Elsewhere region base file) :
    (CommandLine.Invocation.fileStore file).Follows (CommandLine.Invocation.fileStore file)
      fun e e' => Engine.Mirrors region base r first e' e where
  get {e' e} key h := by
    have same := mirrored_load h.files elsewhere.way key
    exact ⟨congrArg (Except.map _) same, h⟩
  set {e' e} key value h := by
    have same := mirrored_load h.files elsewhere.way key
    show (File.set .none file key value e'.files).result =
      (File.set .none file key value e.files).result ∧
      Engine.Mirrors region base r first (e.setFiles (File.set .none file key value e.files).state)
        (e'.setFiles (File.set .none file key value e'.files).state)
    unfold File.set
    rw [same]
    cases load file key e.files with
    | error error => exact ⟨rfl, h⟩
    | ok settings =>
      obtain ⟨result, still⟩ := mirrored_save h.files elsewhere (settings.upsert key value)
      dsimp only
      generalize save .none file (settings.upsert key value) e.files = o at result still ⊢
      generalize save .none file (settings.upsert key value) e'.files = o' at result still ⊢
      obtain ⟨done, saved⟩ := o
      obtain ⟨done', saved'⟩ := o'
      obtain rfl : done' = done := result
      cases done' <;> exact ⟨rfl, h.setFiles still⟩

end File

namespace DatabaseFile

open Engine

variable {α : Type} {a : Attempt α} {slot : Nat} {path : Path}

/-! ## Databases -/

theorem mirrored_ofAttempt {rel : α → α → Prop} (h : BlindOn region base r first e e' rel a a)
    (same : ∀ x x', rel x x' → x' = x) :
    (ofAttempt a e').result = (ofAttempt a e).result ∧
      Engine.Mirrors region base r first (ofAttempt a e).state (ofAttempt a e').state ∧
      ∀ x, (ofAttempt a e).result = .ok x → rel x x := by
  obtain ⟨results, still⟩ := h
  unfold ofAttempt
  generalize a.on e = o at results still ⊢
  generalize a.on e' = o' at results still ⊢
  obtain ⟨result, after⟩ := o
  obtain ⟨result', after'⟩ := o'
  cases results with
  | ok related =>
    obtain rfl := same _ _ related
    refine ⟨rfl, still, ?_⟩
    rintro _ ⟨⟩
    exact related
  | error error => exact ⟨rfl, still, nofun⟩

/-- A store on a connection to a database that lies away from the region answers alike. -/
theorem mirrored (time : Int) (own : first ≤ slot) :
    (store time slot).Follows (store time slot)
      fun e e' => Engine.Mirrors region base r first e' e where
  get {e' e} key h := by
    obtain ⟨same, still, -⟩ := mirrored_ofAttempt
      (blind_query own Database.checkValue (·.value? key) e e' h) fun _ _ => Eq.symm
    simp only [store, get, Outcome.andThen, same]
    cases (ofAttempt (query slot Database.checkValue (·.value? key)) e).result <;>
      exact ⟨rfl, still⟩
  set {e' e} key value h := by
    obtain ⟨same, still, -⟩ := mirrored_ofAttempt
      (blind_execute own Database.checkUpsert (·.upsert key value.toText time) e e' h)
      fun _ _ => Eq.symm
    have told := fun e => reporting_result (.rowStored key value.toText.utf8ByteSize)
      (ofAttempt (execute slot Database.checkUpsert (·.upsert key value.toText time)) e)
    show (reporting _ _).result = (reporting _ _).result ∧ _
    rw [(told e).1, (told e').1]
    exact ⟨same, (told e).2 ▸ (told e').2 ▸ still⟩

theorem mirrored_connect (h : Engine.Mirrors region base r first e e')
    (elsewhere : ∀ a, Database.Address.read path = .ok a → a.isFileless = false →
      Engine.Elsewhere region base e.files a) :
    (connect path e').result = (connect path e).result ∧
      Engine.Mirrors region base r first (connect path e).state (connect path e').state ∧
      ∀ slot, (connect path e).result = .ok slot → first ≤ slot := by
  obtain ⟨same, still, own⟩ := mirrored_ofAttempt
    (h.connectAnd elsewhere fun slot own => blind_adopt own) fun _ _ used => used.1
  have told (e : Engine) : (connect path e).result =
      (ofAttempt (connectAnd path adopt) e).result.map (·.1) ∧
      (connect path e).state = (ofAttempt (connectAnd path adopt) e).state :=
    reporting_result .databaseReady _
  rw [(told e).1, (told e).2, (told e').1, (told e').2, same]
  refine ⟨rfl, still, fun slot opened => ?_⟩
  cases used : (ofAttempt (connectAnd path adopt) e).result with
  | ok opened' =>
    rw [used] at opened
    obtain rfl := Except.ok.inj opened
    exact (own _ used).2
  | error error => simp [used, Except.map] at opened

/-- All that is looked at to open the database at a path lies away from the region. -/
structure Elsewhere (region : Set Location) (base fs : FileSystem) (path : Path) : Prop where
  way : base.Away region path
  file : ∀ a, Database.Address.read path = .ok a → a.isFileless = false →
    Engine.Elsewhere region base (fs.makeDirectories (path.directory?.getD [])).2 a

theorem mirrored_openPath (h : Engine.Mirrors region base r first e e')
    (elsewhere : Elsewhere region base e.files path) :
    (openPath path e').result = (openPath path e).result ∧
      Engine.Mirrors region base r first (openPath path e).state (openPath path e').state ∧
      ∀ slot, (openPath path e).result = .ok slot → first ≤ slot := by
  obtain ⟨same, still⟩ := h.files.makeDirectories elsewhere.way
  have file := elsewhere.file
  unfold openPath Outcome.after
  simp only
  generalize e.files.makeDirectories (path.directory?.getD []) = o at same still file ⊢
  generalize e'.files.makeDirectories (path.directory?.getD []) = o' at same still ⊢
  obtain ⟨result, made⟩ := o
  obtain ⟨result', made'⟩ := o'
  obtain rfl : result' = result := same
  cases result' with
  | error fault => exact ⟨rfl, h.setFiles still, nofun⟩
  | ok => exact mirrored_connect (h.setFiles still) file

end DatabaseFile

end CobolDialects.Settings
