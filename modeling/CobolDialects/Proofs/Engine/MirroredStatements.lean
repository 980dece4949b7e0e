import CobolDialects.Proofs.Engine.Mirrored

/-!
# Connections to engines that mirror one another

Whole statements, through a connection to a database that lies away from the region, cannot tell
engines apart that mirror one another; nor can opening such a connection and closing it.
-/

namespace CobolDialects.Engine

open Attempt Database

variable {region : Set Location} {base fs fs' : FileSystem} {r : Renumbering} {first slot n : Nat}
  {e e' : Engine} {c : Connection} {at_ : Location} {use : LogUse} {check : Check} {α : Type}

/-! ## Statements -/

theorem blind_learn (d : Declaration) :
    Blind region base r first Eq (learn slot d) (learn slot d) := by
  refine blind_modify fun e e' mirrors => mirrors.update slot (fun c _ => ?_) (fun c open_ => ?_)
    fun c => ?_
  · show (if c.sharing then _ else _) = Connection.renumbered r (if c.sharing then _ else _)
    split_ifs <;> rfl
  · have shared := mirrors.shared_connection open_
    split_ifs
    · exact shared
    · exact ⟨shared.file, shared.log⟩
  · split_ifs <;> rfl

theorem blind_declaration (own : first ≤ slot) :
    Blind region base r first Eq (declaration slot) (declaration slot) := by
  refine (blind_connection own).bind fun c c' twins => ?_
  obtain ⟨rfl, -, -⟩ := twins
  rw [Connection.known_renumbered]
  cases c.known with
  | some d => exact blind_pure rfl
  | none =>
    refine (blind_view own).bind fun db _ same => ?_
    subst same
    exact (blind_learn _).bind fun _ _ _ => blind_pure rfl

theorem blind_recheck (own : first ≤ slot) (known : Declaration) (check : Check) (error : Error) :
    Blind region base r first Eq (recheck slot known check error)
      (recheck slot known check error) := by
  refine (blind_view own).observe.bind fun result _ same => ?_
  subst same
  cases result with
  | error _ => exact blind_throw error
  | ok db =>
    refine blind_guard .rfl fun _ => ?_
    exact (blind_learn _).bind fun _ _ _ => blind_ofExcept _

theorem blind_viewChecked (own : first ≤ slot) (known : Declaration) (check : Check) :
    Blind region base r first Eq (viewChecked slot known check) (viewChecked slot known check) := by
  refine (blind_view own).bind fun db _ same => ?_
  subst same
  refine blind_ite .rfl (fun _ => blind_pure rfl) fun _ => ?_
  refine (blind_learn _).bind fun _ _ _ => ?_
  cases check db.shape? with
  | ok => exact blind_pure rfl
  | error error => exact blind_throw _

theorem blind_prepare (own : first ≤ slot) (writing : Bool) (check : Check) :
    Blind region base r first Eq (prepare slot writing check) (prepare slot writing check) := by
  refine (blind_declaration own).bind fun known _ same => ?_
  subst same
  cases check known.shape with
  | ok =>
    exact blind_ite .rfl
      (fun _ => (blind_requireWritable own).bind fun _ _ _ => blind_viewChecked own known check)
      fun _ => blind_viewChecked own known check
  | error error =>
    refine blind_guard .rfl fun _ => ?_
    refine (blind_recheck own known check error).bind fun _ _ _ => ?_
    exact blind_ite .rfl (fun _ => (blind_requireWritable own).bind fun _ _ _ => blind_view own)
      fun _ => blind_view own

theorem blind_query (own : first ≤ slot) (check : Check) (read : Database → Except Error α) :
    Blind region base r first Eq (query slot check read) (query slot check read) := by
  refine (blind_prepare own false check).bind fun db _ same => ?_
  subst same
  exact blind_ofExcept _

theorem blind_execute (own : first ≤ slot) (check : Check)
    (write : Database → Except Error Database) :
    Blind region base r first Eq (execute slot check write) (execute slot check write) := by
  refine (blind_prepare own true check).bind fun db _ same => ?_
  subst same
  refine (blind_ofExcept _).bind fun changed _ same => ?_
  subst same
  exact blind_commit own db changed

theorem blind_keepLog (own : first ≤ slot) :
    Blind region base r first Eq (keepLog slot) (keepLog slot) := by
  refine (blind_view own).bind fun db _ same => ?_
  subst same
  refine (blind_connection own).bind fun c c' twins => ?_
  obtain ⟨rfl, -, -⟩ := twins
  exact blind_ite (by simp) (fun _ => blind_commit own _ _) fun _ => blind_pure rfl

theorem blind_declareTable (own : first ≤ slot) :
    Blind region base r first Eq (declareTable slot) (declareTable slot) := by
  refine (blind_view own).bind fun db _ same => ?_
  subst same
  exact blind_ite .rfl (fun _ => (blind_commit own _ _).bind fun _ _ _ => blind_learn _)
    fun _ => blind_learn _

theorem blind_adopt (own : first ≤ slot) :
    Blind region base r first Eq (adopt slot) (adopt slot) :=
  (blind_keepLog own).bind fun _ _ _ => blind_declareTable own

/-! ## Opening -/

/-- The slot of a connection, which is a new one in both engines. -/
structure Slots (first slot slot' : Nat) : Prop where
  same : slot' = slot
  own : first ≤ slot

theorem blind_enter {a : Address} (shared : n ∈ r.shared) {location : Option Location}
    (apart : ∀ at_, location = some at_ → Apart region base at_) :
    Blind region base r first (Slots first) (enter a n location)
      (enter a (r.number n) location) := by
  refine blind_get.bind fun e e' mirrors => ?_
  have length : e'.connections.length = e.connections.length := by
    rw [mirrors.connections, List.length_map]
  rw [length, mirrors.process]
  refine (blind_set ?_).bind fun _ _ _ => blind_pure ⟨rfl, mirrors.fewer⟩
  refine mirrors.addConnection (c := newConnection a e.process n location) ⟨shared, ?_⟩ apart
  rintro use ⟨⟩

theorem blind_connectFileless (a : Address) :
    Blind region base r first (Slots first) (connectFileless a) (connectFileless a) := by
  refine blind_get.bind fun e e' mirrors => ?_
  have named : a.sharedName?.bind e'.named? =
      (a.sharedName?.bind e.named?).map (NamedDatabase.renumbered r) := by
    cases a.sharedName? with
    | none => rfl
    | some name => exact mirrors.named? name
  rw [named]
  cases there : a.sharedName?.bind e.named? with
  | some d =>
    obtain ⟨name, -, found⟩ := Option.bind_eq_some_iff.mp there
    exact blind_enter (mirrors.sharedNamed d (List.mem_of_find?_eq_some found)) nofun
  | none =>
    obtain ⟨shared, number⟩ := mirrors.files.fresh
    dsimp only [Option.map_none]
    rw [mirrors.process, ← number]
    refine (blind_set ?_).bind fun _ _ _ => blind_enter shared nofun
    refine { mirrors with
      files := mirrors.files.addNode _, named := ?_, process := rfl, sharedNamed := ?_ }
    · rw [mirrors.named, List.map_append]
      cases a.sharedName? <;> rfl
    · intro d inside
      rcases List.mem_append.mp inside with old | new
      · exact mirrors.sharedNamed d old
      · obtain ⟨name, -, rfl⟩ := Option.map_eq_some_iff.mp (Option.mem_toList.mp new)
        exact shared

/-- All that an engine looks at to connect to the database in a file lies away from the region: what
is on the way, what may be beside the database, and the file of which it takes the mode. -/
structure Elsewhere (region : Set Location) (base fs : FileSystem) (a : Address) : Prop where
  way : ∀ at_, FileSystem.Follows fs (fs.start a.path) a.path.names at_ → base.Away region at_.path
  apart : ∀ at_, fs.locate? a.path = some at_ → Apart region base at_
  mode : ∀ path, a.value? "modeof" = some path → base.Away region path

theorem blind_modeFor {a : Address} (away : ∀ path, a.value? "modeof" = some path →
    base.Away region path) : Blind region base r first Eq (modeFor a) (modeFor a) := by
  unfold modeFor
  cases given : a.value? "modeof" with
  | none => exact blind_pure rfl
  | some path =>
    refine blind_get.bind fun e e' mirrors => ?_
    rw [mirrors.files.permissionsAt? (mirrors.files.away (away path given))]
    cases e.files.permissionsAt? path with
    | none => exact blind_refuse _
    | some mode => exact blind_pure rfl

namespace Mirrors

/-- What is looked up in two engines decides how to go on. -/
theorem get_bind (h : Mirrors region base r first e e') {rel : α → α → Prop}
    {f f' : Engine → Attempt α} (next : Blind region base r first rel (f e) (f' e')) :
    BlindOn region base r first e e' rel (get >>= f) (get >>= f') := next e e' h

/-- Of two engines that mirror one another both connect to a database, in the same slot, or neither
of them does. -/
theorem connectFile (h : Mirrors region base r first e e') (name : Path) {a : Address}
    (elsewhere : Elsewhere region base e.files a) :
    BlindOn region base r first e e' (Slots first) (Engine.connectFile name a)
      (Engine.connectFile name a) := by
  have files := h.files
  have located : e'.files.locate? a.path = e.files.locate? a.path :=
    files.locate? fun at_ there => files.away (elsewhere.way at_ there)
  refine h.get_bind ?_
  dsimp only
  rw [located]
  cases found : (e.files.locate? a.path).filter fun at_ => at_.path.length ≤ maxFullPath with
  | none => exact blind_throw _
  | some at_ =>
    have apart := elsewhere.apart at_ (Option.filter_eq_some_iff.mp found).1
    have away := files.away (apart at_ List.mem_cons_self).2
    refine (blind_modeFor elsewhere.mode).bind fun mode _ same => ?_
    subst same
    rcases files.openAt? away (a.mode = .create) mode with
      ⟨none, none'⟩ | ⟨n, opened, opened', there, there', shared, still⟩
    · rw [none, none', files.isDirectory away]
      exact blind_ite .rfl (fun _ => blind_refuse _) fun _ => blind_throw _
    · rw [there, there']
      refine (blind_setFiles still).bind fun _ _ _ => ?_
      refine blind_enter shared ?_
      rintro _ ⟨⟩
      exact apart

theorem connect (h : Mirrors region base r first e e') {name : Path}
    (elsewhere : ∀ a, Address.read name = .ok a → a.isFileless = false →
      Elsewhere region base e.files a) :
    BlindOn region base r first e e' (Slots first) (Engine.connect name) (Engine.connect name) := by
  by_cases file : name.contains 0 = false ∧
    ∃ a, Address.read name = .ok a ∧ a.isFileless = false
  · obtain ⟨noNul, a, address, file⟩ := file
    have connects : Engine.connect name = Engine.connectFile name a := by
      unfold Engine.connect
      rw [address, noNul]
      simp [file]
    rw [connects]
    exact h.connectFile name (elsewhere a address file)
  · have fileless : Blind region base r first (Slots first) (Engine.connect name)
        (Engine.connect name) := by
      refine blind_guard .rfl fun noNul => ?_
      cases address : Address.read name with
      | error fault => exact blind_throw _
      | ok a =>
        refine blind_ite .rfl (fun _ => blind_connectFileless a) fun inFile => ?_
        exact absurd ⟨by simpa using noNul, a, address, by simpa using inFile⟩ file
    exact fileless e e' h

end Mirrors

/-! ## Closing -/

namespace Mirrors

theorem checkpoint? (h : Mirrors region base r first e e') (file : n ∈ r.shared)
    (log : use.Shared r) :
    e.checkpoint? n use = none ∧ e'.checkpoint? (r.number n) (use.renumbered r) = none ∨
      ∃ done done', e.checkpoint? n use = some done ∧
        e'.checkpoint? (r.number n) (use.renumbered r) = some done' ∧
        Mirrors region base r first done done' := by
  have reach : e'.reach (use.renumbered r).index = e.reach use.index := h.reach log.index
  have content : e'.content (use.renumbered r).log = e.content use.log := h.content log.log
  unfold Engine.checkpoint?
  rw [reach, content, h.content file]
  split_ifs
  · exact .inr ⟨e, e', rfl, rfl, h⟩
  cases e.content use.log with
  | log l =>
    dsimp only
    cases l.state? (e.reach use.index) with
    | none => exact .inl ⟨rfl, rfl⟩
    | some db => exact .inr ⟨_, _, rfl, rfl, h.setContent file _⟩
  | bytes | database | logIndex => exact .inl ⟨rfl, rfl⟩

theorem leaveLog (h : Mirrors region base r first e e') (shared : c.Shared r) (log : use.Shared r)
    (apart : ∀ at_, c.location = some at_ → Apart region base at_) :
    Mirrors region base r first (e.leaveLog c at_ use)
      (e'.leaveLog (c.renumbered r) at_ (use.renumbered r)) := by
  unfold Engine.leaveLog
  rw [Connection.file_renumbered]
  rcases h.checkpoint? shared.file log with ⟨none, none'⟩ | ⟨done, done', there, there', still⟩
  · rw [none, none']
    exact h
  · rw [there, there']
    simp only [Connection.readOnly_renumbered, h.isMoved shared apart, LogUse.renumbered]
    split_ifs
    · exact h
    · refine still.setFiles ?_
      cases use.place with
      | none => exact still.files.unlink _
      | some place => exact (still.files.unlink _).unlink place

/-- A database in memory is given up. -/
theorem filterNamed (h : Mirrors region base r first e e') (shared : n ∈ r.shared) :
    Mirrors region base r first { e with named := e.named.filter (·.file ≠ n) }
      { e' with named := e'.named.filter (·.file ≠ r.number n) } :=
  { h with
    named := by
      show e'.named.filter _ = (e.named.filter _).map _
      rw [h.named, List.filter_map]
      congr 1
      refine List.filter_congr fun d there => ?_
      simp only [Function.comp_apply, NamedDatabase.renumbered, ne_eq,
        r.number_eq_iff (h.sharedNamed d there) shared]
    sharedNamed := fun d there => h.sharedNamed d (List.mem_filter.mp there).1 }

theorem close (h : Mirrors region base r first e e') (own : first ≤ slot) :
    Mirrors region base r first (e.close slot) (e'.close slot) := by
  unfold Engine.close
  rw [h.connection?]
  cases open_ : e.connection? slot with
  | none => exact h
  | some c =>
    have shared := h.shared_connection open_
    have apart := fun at_ => h.apart slot c at_ own open_
    have rest := h.without slot
    have ended : Mirrors region base r first
        (if ({ e with connections := e.connections.set slot none } : Engine).isOpen c.file
          then { e with connections := e.connections.set slot none }
          else { e with
            connections := e.connections.set slot none
            named := e.named.filter (·.file ≠ c.file) })
        (if ({ e' with connections := e'.connections.set slot none } : Engine).isOpen
            (r.number c.file)
          then { e' with connections := e'.connections.set slot none }
          else { e' with
            connections := e'.connections.set slot none
            named := e'.named.filter (·.file ≠ r.number c.file) }) := by
      rw [rest.isOpen shared.file]
      split_ifs
      · exact rest
      · exact rest.filterNamed shared.file
    simp only [Option.map_some, Connection.location_renumbered, Connection.log_renumbered,
      Connection.file_renumbered]
    cases location : c.location with
    | none => exact ended
    | some at_ =>
      cases log : c.log with
      | none => exact ended
      | some use =>
        simp only [Option.map_some, rest.hasLogger shared.file]
        split_ifs
        · exact rest
        · exact rest.leaveLog shared (shared.log use log) apart

/-- A connection is made and used; if that fails it is closed again. -/
theorem connectAnd (h : Mirrors region base r first e e') {name : Path}
    (elsewhere : ∀ a, Address.read name = .ok a → a.isFileless = false →
      Elsewhere region base e.files a) {act : Nat → Attempt α}
    (blind : ∀ slot, first ≤ slot → Blind region base r first Eq (act slot) (act slot)) :
    BlindOn region base r first e e' (fun used used' => used' = used ∧ first ≤ used.1)
      (Engine.connectAnd name act) (Engine.connectAnd name act) := by
  refine (h.connect elsewhere).bind fun slot slot' slots => ?_
  obtain ⟨same, own⟩ := slots
  subst same
  refine (blind slot' own).observe.bind fun result _ same => ?_
  subst same
  cases result with
  | ok a => exact blind_pure ⟨rfl, own⟩
  | error error =>
    exact (blind_modify fun _ _ mirrors => mirrors.close own).bind fun _ _ _ => blind_throw error

end Mirrors

end CobolDialects.Engine
