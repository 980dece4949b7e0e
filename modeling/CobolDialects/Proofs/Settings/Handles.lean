import CobolDialects.Proofs.Engine.Adopting
import CobolDialects.Proofs.Settings.Rows
import CobolDialects.Proofs.Settings.Supply

/-!
# Handles carry no state

A store on a file is no more than the path of the file, and one in a database no more than a
connection to it. So whichever store on a path an operation goes through, and whatever stores have
been opened and closed there before, it is answered as by one store that is open all the time.
-/

namespace CobolDialects.Settings

open CommandLine Database

/-- The command line is run on the settings at a path. -/
def On (backend : Backend) (path : Path) (inv : Invocation) (env : Locations.Environment) : Prop :=
  inv.backend = backend ∧ inv.location env = path

/-! ## Settings in a file -/

namespace File

def service (path : Path) : Service Engine where
  store _ := Invocation.fileStore path
  stamp? := none

/-- A store on a settings file is the path of that file. -/
def supply (path : Path) : Supply Engine Path where
  opening _ e := (.ok path, e)
  closing _ e := e
  service := service
  invoke _ time inv env e :=
    let p := inv.perform env time e
    (p.conclusion, p.state)

theorem supply_follows (path : Path) : (supply path).Follows (service path) (On .json path)
    fun handles e e' => e = e' ∧ ∀ h, some h ∈ handles → h = path where
  opening process related := by
    refine ⟨path, rfl, related.1, fun h there => ?_⟩
    rcases List.mem_append.mp there with old | new
    · exact related.2 h old
    · exact Option.some.inj (List.mem_singleton.mp new)
  closing related _ := by
    refine ⟨related.1, fun h there => related.2 h ?_⟩
    exact (List.mem_or_eq_of_mem_set there).resolve_right nofun
  service related found := by
    obtain rfl := related.2 _ (Supply.mem_of_getD found)
    refine ⟨fun time => ⟨fun key related => ?_, fun key value related => ?_⟩, trivial⟩
    · obtain ⟨rfl, only⟩ := related
      exact ⟨rfl, rfl, only⟩
    · obtain ⟨rfl, only⟩ := related
      exact ⟨rfl, rfl, only⟩
  invoke process time inv env as related := by
    obtain ⟨rfl, only⟩ := related
    obtain ⟨json, rfl⟩ := as
    simp only [supply, Invocation.perform, json]
    exact ⟨rfl, rfl, only⟩

end File

/-! ## Settings in a database -/

namespace DatabaseFile

open Engine FileSystem

variable {path : Path} {base : FileSystem} {at_ : Location} {db : Database} {e : Engine}
  {slots : Set Nat} {slot : Nat} {key : String}

def service (slot : Nat) : Service Engine where
  store time := store time slot
  stamp? := some fun key e => ((updatedAt slot key e).result, (updatedAt slot key e).state)

/-- A store in a database is a connection to it. -/
def supply (path : Path) : Supply Engine Nat where
  opening process e :=
    let o := openPath path { e with process }
    (o.result, o.state)
  closing slot e := e.close slot
  service := service
  invoke process time inv env e :=
    let p := inv.perform env time { e with process }
    (p.conclusion, p.state)

/-- What a store answers, and writes, without a connection. -/
def direct : Service Database where
  store time := {
    get := fun key db => .same db (((db.value? key).mapError .database).bind decode)
    set := fun key value db =>
      match db.upsert key value.toText time with
      | .ok changed => ⟨.ok (), changed, []⟩
      | .error error => ⟨.error (.database error), db, []⟩ }
  stamp? := some fun key db => ((db.updatedAt? key).mapError .database, db)

/-- A statement that reads is answered by the database, through whichever connection. -/
theorem query_kept {α : Type} {check : Check} {read : Database → Except Database.Error α}
    (kept : Kept base at_ slots db e) (there : slot ∈ slots)
    (fails : ∀ error, check db.shape? = .error error → read db = .error error) :
    (ofAttempt (query slot check read) e).result = (read db).mapError .database ∧
      Kept base at_ slots db (ofAttempt (query slot check read) e).state := by
  obtain ⟨declared, f, shared⟩ := kept.shares there
  obtain ⟨result, still⟩ := ofAttempt_comes (shared.query_comes declared there fails)
  exact ⟨result, .of_shared still declared there⟩

theorem get_kept (kept : Kept base at_ slots db e) (there : slot ∈ slots) (key : String) :
    (get slot key e).result = ((db.value? key).mapError .database).bind decode ∧
      Kept base at_ slots db (get slot key e).state := by
  have fails (error : Database.Error) (failed : checkValue db.shape? = .error error) :
      db.value? key = .error error := by
    rw [Database.value?, failed]
  obtain ⟨result, still⟩ : (ofAttempt (query slot checkValue (·.value? key)) e).result =
      (db.value? key).mapError .database ∧ _ := query_kept kept there fails
  unfold get Outcome.andThen
  rw [result]
  cases db.value? key <;> exact ⟨rfl, still⟩

theorem updatedAt_kept (kept : Kept base at_ slots db e) (there : slot ∈ slots) (key : String) :
    (updatedAt slot key e).result = (db.updatedAt? key).mapError .database ∧
      Kept base at_ slots db (updatedAt slot key e).state := by
  have fails (error : Database.Error) (failed : checkStamp db.shape? = .error error) :
      db.updatedAt? key = .error error := by
    rw [Database.updatedAt?, failed]
  exact query_kept kept there fails

theorem set_kept (kept : Kept base at_ slots db e) (there : slot ∈ slots) (time : Int)
    (key : String) (value : Json) :
    (set time slot key value e).result = ((direct.store time).set key value db).result ∧
      Kept base at_ slots ((direct.store time).set key value db).state
        (set time slot key value e).state := by
  obtain ⟨declared, f, shared⟩ := kept.shares there
  obtain ⟨result, state⟩ := set_outcome time slot key value e
  rw [result, state]
  cases checked : checkUpsert db.shape? with
  | error error =>
    have written : db.upsert key value.toText time = .error error := by
      rw [Database.upsert, checked]
    obtain ⟨failed, still⟩ := ofAttempt_comes (shared.execute_fails declared there checked)
    simp only [direct, written]
    exact ⟨failed, .of_shared still declared there⟩
  | ok =>
    generalize written : db.setRows (upsertRow (storedRow key value time) db.rows) = changed
    have upserted : db.upsert key value.toText time = .ok changed := by
      rw [← written, Database.upsert, checked]
      rfl
    have asks : changed.logged = true := written ▸ shared.files.asks
    have same : changed.declaration = db.declaration := by
      rw [← written, Database.declaration, shape?_setRows, Database.declaration]
      rfl
    have writes : (execute slot checkUpsert (·.upsert key value.toText time)).Comes e (.ok ()) _ :=
      shared.execute_comes declared there checked upserted asks same
    obtain ⟨done, still⟩ := ofAttempt_comes writes
    have declared' : changed.shape?.isSome := by
      rw [← written, shape?_setRows]
      exact declared
    simp only [direct, upserted]
    exact ⟨done, .of_shared still declared' there⟩

/-! ## Opening and closing stores -/

/-- A store is opened by connecting to its database, once the directories above are made. -/
theorem openPath_of_connectAnd {made : FileSystem} {holds : Engine → Prop}
    (makes : e.files.makeDirectories (path.directory?.getD []) = (.ok (), made))
    (opens : (connectAnd path adopt).Comes (e.setFiles made) (.ok (slot, ())) holds) :
    (openPath path e).result = .ok slot ∧ holds (openPath path e).state := by
  obtain ⟨-, state⟩ := reporting_result .databaseReady
    ((ofAttempt (connectAnd path adopt) (e.setFiles made)).map (·.1))
  obtain ⟨opened, still⟩ := ofAttempt_comes opens
  refine ⟨?_, ?_⟩
  · simp only [openPath, makes, Outcome.after, connect, Outcome.map, opened]
    rfl
  · simp only [openPath, makes, Outcome.after, connect, state]
    exact still

/-- Opening a store gives a connection of its own. -/
theorem openPath_comes {made : FileSystem} (site : Site path at_ base)
    (makes : e.files.makeDirectories (path.directory?.getD []) = (.ok (), made))
    (kept : Kept base at_ slots db (e.setFiles made)) :
    ∃ slot ∉ slots, (openPath path e).result = .ok slot ∧
      Kept base at_ (insert slot slots) db (openPath path e).state := by
  obtain ⟨slot, new, opens⟩ := kept.opens site
  exact ⟨slot, new, openPath_of_connectAnd makes opens⟩

theorem service_kept (there : slot ∈ slots) :
    (service slot).Follows direct fun e db => Kept base at_ slots db e where
  store time :=
    ⟨fun key kept => get_kept kept there key,
      fun key value kept => set_kept kept there time key value⟩
  stamp key kept := updatedAt_kept kept there key

/-- The slots of stores that are open. -/
def slotsOf (handles : List (Option Nat)) : Set Nat := {slot | some slot ∈ handles}

/-- The open stores have different slots, and use the database. If there are none, the directories
above it may have to be made. -/
structure Ready (path : Path) (base : FileSystem) (at_ : Location) (handles : List (Option Nat))
    (db : Database) (e : Engine) : Prop where
  apart : ∀ i j slot, handles.getD i none = some slot → handles.getD j none = some slot → i = j
  kept : Kept base at_ (slotsOf handles) db e ∨ slotsOf handles = ∅ ∧ ∃ made,
    e.files.makeDirectories (path.directory?.getD []) = (.ok (), made) ∧
      Kept base at_ ∅ db (e.setFiles made)

namespace Ready

variable {handles : List (Option Nat)} {number : Nat}

theorem used (h : Ready path base at_ handles db e) (found : handles.getD number none = some slot) :
    slot ∈ slotsOf handles ∧ Kept base at_ (slotsOf handles) db e := by
  have there : slot ∈ slotsOf handles := Supply.mem_of_getD found
  rcases h.kept with kept | ⟨unused, -⟩
  · exact ⟨there, kept⟩
  · rw [unused] at there
    exact there.elim

theorem opens (h : Ready path base at_ handles db e) (site : Site path at_ base) (process : Nat) :
    ∃ slot ∉ slotsOf handles, (openPath path { e with process }).result = .ok slot ∧
      Kept base at_ (insert slot (slotsOf handles)) db
        (openPath path { e with process }).state := by
  rcases h.kept with kept | ⟨unused, made, makes, kept⟩
  · have makes := site.makeDirectories kept.varies
    exact openPath_comes site makes (kept.forProcess process)
  · rw [unused]
    exact openPath_comes site makes (kept.forProcess process)

theorem opened (h : Ready path base at_ handles db e) {after : Engine}
    (new : slot ∉ slotsOf handles)
    (kept : Kept base at_ (insert slot (slotsOf handles)) db after) :
    Ready path base at_ (handles ++ [some slot]) db after := by
  have old {i other : Nat} (found : (handles ++ [some slot]).getD i none = some other) :
      handles.getD i none = some other ∨ i = handles.length ∧ slot = other := by
    rw [List.getD_eq_getElem?_getD, List.getElem?_append] at found
    rw [List.getD_eq_getElem?_getD]
    split_ifs at found with inside
    · exact .inl found
    · rw [List.getElem?_singleton] at found
      split_ifs at found with last
      · exact .inr ⟨by omega, Option.some.inj found⟩
      · cases found
  refine ⟨fun i j other first second => ?_, .inl (kept.mono fun other there => ?_)⟩
  · -- The new slot is none of the old ones, so it is found at the end only.
    rcases old first with first | ⟨rfl, rfl⟩ <;> rcases old second with second | ⟨rfl, same⟩
    · exact h.apart i j other first second
    · exact absurd (Supply.mem_of_getD first) (same ▸ new)
    · exact absurd (Supply.mem_of_getD second) new
    · rfl
  · rcases List.mem_append.mp there with old | same
    · exact .inr old
    · exact .inl (Option.some.inj (List.mem_singleton.mp same))

theorem closed (h : Ready path base at_ handles db e) (site : Site path at_ base)
    (found : handles.getD number none = some slot) :
    Ready path base at_ (handles.set number none) db (e.close slot) := by
  obtain ⟨there, kept⟩ := h.used found
  have old {i other : Nat} (left : (handles.set number none).getD i none = some other) :
      handles.getD i none = some other ∧ i ≠ number := by
    rw [List.getD_eq_getElem?_getD] at left ⊢
    by_cases same : i = number
    · subst same
      rw [List.getElem?_set_self'] at left
      cases inside : handles[i]? <;> simp [inside] at left
    · rw [List.getElem?_set_ne (Ne.symm same)] at left
      exact ⟨left, same⟩
  refine ⟨fun i j other first second => h.apart i j other (old first).1 (old second).1,
    .inl ((kept.closes site there).mono fun other inside => ?_)⟩
  obtain ⟨i, left⟩ := List.mem_iff_getElem?.mp inside
  -- The slot is given up for good, since no other store has it.
  obtain ⟨before, ne⟩ := old (i := i) (by rw [List.getD_eq_getElem?_getD, left]; rfl)
  refine ⟨Supply.mem_of_getD before, ?_⟩
  rintro rfl
  exact ne (h.apart i number other before found)

/-- The same stores are open, and use what is now the database. -/
theorem still (h : Ready path base at_ handles db e) {changed : Database} {after : Engine}
    (kept : Kept base at_ (slotsOf handles) changed after) :
    Ready path base at_ handles changed after := ⟨h.apart, .inl kept⟩

end Ready

theorem supply_follows (site : Site path at_ base) :
    (supply path).Follows direct (On .sqlite path) fun handles e db =>
      Ready path base at_ handles db e where
  opening process ready := by
    obtain ⟨slot, new, opened, still⟩ := ready.opens site process
    exact ⟨slot, opened, ready.opened new still⟩
  closing ready found := ready.closed site found
  service {handles e db number slot} ready found := {
    store := fun time => {
      get := fun key ready =>
        have ⟨there, kept⟩ := ready.used found
        have ⟨same, after⟩ := get_kept kept there key
        ⟨same, ready.still after⟩
      set := fun key value ready =>
        have ⟨there, kept⟩ := ready.used found
        have ⟨same, after⟩ := set_kept kept there time key value
        ⟨same, ready.still after⟩ }
    stamp := fun key ready =>
      have ⟨there, kept⟩ := ready.used found
      have ⟨same, after⟩ := updatedAt_kept kept there key
      ⟨same, ready.still after⟩ }
  invoke {handles e db} process time inv env as ready := by
    obtain ⟨sqlite, rfl⟩ := as
    obtain ⟨slot, new, opened, kept⟩ := ready.opens site process
    have own : slot ∈ insert slot (slotsOf handles) := .inl rfl
    obtain ⟨same, still⟩ := (service_kept own).carryOut time inv kept
    simp only [supply, Invocation.perform, sqlite, opened]
    refine ⟨same, ready.apart, .inl ((still.closes site own).mono fun other there => ?_)⟩
    exact ⟨.inr there, fun same => new (same ▸ there)⟩

/-- Nobody uses the database at a path, and the directories above it can be made. -/
def AtRest (path : Path) (db : Database) (e : Engine) : Prop :=
  ∃ at_ made, e.files.makeDirectories (path.directory?.getD []) = (.ok (), made) ∧
    Site path at_ made ∧ Resting made at_ db (e.setFiles made)

/-- A database is at rest in a file that has no log or journal beside it, if nothing is open. -/
theorem atRest_of_file {n : Nat} (spot : e.files.Spot at_) (short : at_.path.length ≤ maxFullPath)
    (name : ∀ last ∈ at_.getLast?, last.length + 8 ≤ maxNameLength)
    (file : e.files.entry? at_ = some (.file n)) (bound : n < e.files.nodes.length)
    (content : (e.content n).asDatabase = .ok db)
    (alone : ∀ ending ∈ [logEnding, indexEnding, journalEnding],
      e.files.entry? (.beside at_ ending) = none)
    (closed : ∀ slot, e.connection? slot = none) : AtRest at_.path db e := by
  have log := alone logEnding (by simp)
  have index := alone indexEnding (by simp)
  have journal := alone journalEnding (by simp)
  have plain : ∀ x ∈ places at_, e.files.Plain x := by
    simp only [places, List.forall_mem_cons]
    exact ⟨.inr ⟨n, file⟩, .inl log, .inl index, .inl journal, List.forall_mem_nil _⟩
  have site := site_of_spot spot short name plain
  have varies : Varies (places at_) e.files e.files := ⟨rfl, fun _ _ => rfl, plain⟩
  exact ⟨at_, e.files, site.makeDirectories varies, site,
    ⟨varies, log, index, journal, .inr ⟨n, bound, file, content⟩, closed⟩⟩

/-- Opening a store on a database that is at rest. -/
theorem AtRest.opens (h : AtRest path db e) : ∃ base at_ slot,
    Site path at_ base ∧ Ready path base at_ [] db.prepared e ∧
      (openPath path e).result = .ok slot ∧
      Kept base at_ {slot} db.prepared (openPath path e).state := by
  obtain ⟨at_, made, makes, site, rests⟩ := h
  have kept : Kept made at_ ∅ db.prepared (e.setFiles made) := .resting rests rfl rfl
  have none_open : slotsOf [] = ∅ :=
    Set.eq_empty_iff_forall_notMem.mpr fun _ there => by cases there
  obtain ⟨slot, -, opened, still⟩ := openPath_comes site makes kept
  refine ⟨made, at_, slot, site, ⟨nofun, .inr ⟨none_open, made, makes, kept⟩⟩, opened, ?_⟩
  exact still.mono fun _ own => .inl own

theorem prepared_of_declared (declared : db.shape?.isSome) :
    db.prepared = { db with logged := true } :=
  declare_of_some (by simpa [shape?] using declared)

end DatabaseFile

/-! ## Any stores, and one store -/

/-- Whatever stores are opened, used and closed on a settings file, and whatever commands are run,
all is answered as by one store that is open all the time; so it is on a database, of which nobody
makes use at first. Opening a store on a file changes nothing, and one that is opened on a database
with the settings relation finds every value, and every time of writing, as it was. -/
theorem handles_carry_no_state (path : Path) :
    (∀ e turns, (∀ turn ∈ turns, turn.Runs (On .json path)) →
      (File.supply path).run turns [] e = (Supply.lasting (File.service path)).run turns [] e) ∧
    (∀ process e, (File.supply path).opening process e = (.ok path, e)) ∧
    ∀ db e, DatabaseFile.AtRest path db e → ∃ slot,
      (DatabaseFile.openPath path e).result = .ok slot ∧
      (∀ turns, (∀ turn ∈ turns, turn.Runs (On .sqlite path)) →
        (DatabaseFile.supply path).run turns [] e =
          (Supply.lasting (DatabaseFile.service slot)).run turns []
            (DatabaseFile.openPath path e).state) ∧
      (db.shape?.isSome → ∀ key,
        (DatabaseFile.get slot key (DatabaseFile.openPath path e).state).result =
            ((db.value? key).mapError .database).bind DatabaseFile.decode ∧
          (DatabaseFile.updatedAt slot key (DatabaseFile.openPath path e).state).result =
            (db.updatedAt? key).mapError .database) := by
  refine ⟨fun e turns runs => ?_, fun _ _ => rfl, fun db e rests => ?_⟩
  · exact (File.supply_follows path).run runs ⟨rfl, nofun⟩
  obtain ⟨base, at_, slot, site, ready, opened, kept⟩ := rests.opens
  have own : slot ∈ ({slot} : Set Nat) := rfl
  refine ⟨slot, opened, fun turns runs => ?_, fun declared key => ?_⟩
  · have spread := (DatabaseFile.supply_follows site).run runs ready
    have single : (Supply.lasting (DatabaseFile.service slot)).run turns []
        (DatabaseFile.openPath path e).state =
          (Supply.lasting DatabaseFile.direct).run turns [] db.prepared :=
      (Supply.lasting_follows (DatabaseFile.service_kept own)).run runs kept
    exact spread.trans single.symm
  · have value := (DatabaseFile.get_kept kept own key).1
    have time := (DatabaseFile.updatedAt_kept kept own key).1
    rw [DatabaseFile.prepared_of_declared declared] at value time
    exact ⟨value, time⟩

/-- Two stores are open at once, one of them is used after the other has been closed, and a third
one is opened when both are closed. -/
theorem replies_of_reopened_stores :
    let at_ : Location := [bytesOf "d", bytesOf "s.db"]
    let path := at_.path
    let db : Database := ⟨some ⟨.keyed, [DatabaseFile.storedRow "k" (.arr []) 3]⟩, 1, false⟩
    let e (content : Content) := Engine.onFiles
      ⟨[([bytesOf "d"], .directory), (at_, .file 0)], [⟨content, FileSystem.privateMode⟩], []⟩
    let settings := e (.bytes (bytesOf "{}"))
    let stored := e (.database db)
    let inv (backend : Backend) : Invocation := ⟨backend, some path, "k", "info", .list false⟩
    let turns (backend : Backend) : List Turn := [.opening 1, .opening 2, .use 0 5 (.set "k" .null),
      .closing 0, .use 1 6 (.get "k"), .stamp 1 "k",
      .invoke 3 7000 (inv backend) ⟨none, none, none, none⟩, .closing 1, .opening 1,
      .use 2 8 (.list "k")]
    (File.supply path).run (turns .json) [] settings =
        (Supply.lasting (File.service path)).run (turns .json) [] settings ∧
      DatabaseFile.AtRest path db stored ∧
      ∃ slot, (DatabaseFile.openPath path stored).result = .ok slot ∧
        (DatabaseFile.supply path).run (turns .sqlite) [] stored =
          (Supply.lasting (DatabaseFile.service slot)).run (turns .sqlite) []
            (DatabaseFile.openPath path stored).state ∧
        (DatabaseFile.get slot "k" (DatabaseFile.openPath path stored).state).result =
          .ok (some (.arr [])) ∧
        (DatabaseFile.updatedAt slot "k" (DatabaseFile.openPath path stored).state).result =
          .ok (some 3) := by
  intro at_ path db e settings stored inv turns
  have runs (backend : Backend) : ∀ turn ∈ turns backend, turn.Runs (On backend path) := by
    simp only [turns, List.forall_mem_cons]
    exact ⟨trivial, trivial, trivial, trivial, trivial, trivial, ⟨rfl, rfl⟩, trivial, trivial,
      trivial, nofun⟩
  have spot : stored.files.Spot at_ := {
    ne_nil := nofun
    usable := by
      have usable (name : Name) (h : name = bytesOf "d" ∨ name = bytesOf "s.db") :
          FileSystem.Usable name := by
        rcases h with rfl | rfl
        · exact ⟨⟨by decide, by decide, by decide, by decide⟩, ⟨by decide, by decide⟩, by decide⟩
        · exact ⟨⟨by decide, by decide, by decide, by decide⟩, ⟨by decide, by decide⟩, by decide⟩
      intro name there
      exact usable name (by simpa [at_] using there)
    directories := fun above front ne => by
      have few : above = [] ∨ above = [bytesOf "d"] ∨ above = at_ := by
        simpa [at_, List.prefix_cons_iff, and_or_left, exists_or] using front
      rcases few with rfl | rfl | rfl
      · rfl
      · decide
      · exact absurd rfl ne
    short := by decide }
  have rests : DatabaseFile.AtRest path db stored :=
    DatabaseFile.atRest_of_file spot (n := 0) (by decide) (by decide) rfl (by decide) rfl
      (by decide) fun _ => rfl
  obtain ⟨file, -, database⟩ := handles_carry_no_state path
  obtain ⟨slot, opened, same, kept⟩ := database db stored rests
  obtain ⟨value, time⟩ := kept rfl "k"
  refine ⟨file settings _ (runs .json), rests, slot, opened, same _ (runs .sqlite), ?_, ?_⟩
  · exact value.trans (by with_unfolding_all rfl)
  · exact time.trans (by with_unfolding_all rfl)
end CobolDialects.Settings
