import CobolDialects.Proofs.Settings.Failure

/-!
# Calls on a settings file, step by step

Each call to the system is one step. Between the steps of one call any number of steps of others may
come, and a call need not be carried on: a schedule says whose turn it is, and what the system
refuses at that turn.
-/

namespace CobolDialects.Settings.File

open FileSystem

/-- A call on a settings file. -/
inductive Call where
  | get (key : String)
  | set (key : String) (value : Json)

/-- What a set writes: a value under a key, into the settings that it has read. -/
structure Writing where
  key : String
  value : Json
  read : Members

/-- The settings that are written. -/
def Writing.changed (a : Writing) : Members := a.read.upsert a.key a.value

/-- How far a call has come. -/
inductive Task where
  | called (call : Call)
  | answered (key : String) (read : Members)
  /-- The settings could not be read. -/
  | unread (e : Error)
  | making (a : Writing)
  | creating (a : Writing) (dir : Location)
  | writing (a : Writing) (temp : Temporary)
  | syncing (a : Writing) (temp : Temporary)
  | publishing (a : Writing) (temp : Temporary)
  | written (a : Writing)
  /-- The settings could not be written. -/
  | abandoned (a : Writing) (fault : Fault)

/-- Goes on with what a step gives. -/
def Writing.goOn {α : Type} (a : Writing) (next : α → Task) : Step α → Task × FileSystem
  | (.ok x, fs) => (next x, fs)
  | (.error fault, fs) => (.abandoned a fault, fs)

namespace Task

/-- Goes on with the settings in the file. -/
def reading (settings : Except Error Members) (next : Members → Task) : Task :=
  match settings with
  | .ok settings => next settings
  | .error e => .unread e

/-- The next step of a call. -/
def step (refusals : Refusals) (file : Path) (fs : FileSystem) : Task → Task × FileSystem
  | .called (.get key) => (reading (load file key fs) (.answered key), fs)
  | .called (.set key value) =>
    (reading (load file key fs) fun read => .making ⟨key, value, read⟩, fs)
  | .making a => a.goOn (.creating a) (makeParents file fs)
  | .creating a dir => a.goOn (.writing a) (createTemporary refusals file dir fs)
  | .writing a temp =>
    a.goOn (fun () => .syncing a temp) (writeTemporary refusals temp (document a.changed) fs)
  | .syncing a temp => a.goOn (fun () => .publishing a temp) (syncTemporary refusals temp fs)
  | .publishing a temp => a.goOn (fun () => .written a) (publish refusals temp file fs)
  | ended => (ended, fs)

/-- What a set writes, as soon as it has read the settings. -/
def writing? : Task → Option Writing
  | .making a | .creating a _ | .writing a _ | .syncing a _ | .publishing a _ | .written a
  | .abandoned a _ => some a
  | _ => none

/-- The call, unless it has failed to read the settings. -/
def call? : Task → Option Call
  | .called call => some call
  | .answered key _ => some (.get key)
  | .unread _ => none
  | t => t.writing?.map fun a => .set a.key a.value

/-- The settings that a call has read. -/
def read? : Task → Option Members
  | .answered _ settings => some settings
  | t => t.writing?.map (·.read)

/-- The temporary file of a call, and the text that it holds if it has been written. -/
def temporary? : Task → Option (Temporary × Option String)
  | .writing _ temp => some (temp, none)
  | .syncing a temp | .publishing a temp => some (temp, some (document a.changed))
  | _ => none

/-- The result of a set that is over. -/
def result? : Task → Option (Except Error Unit)
  | .written _ => some (.ok ())
  | .unread e => some (.error e)
  | .abandoned _ fault => some (.error (.io fault))
  | _ => none

end Task

/-- A file system, and how far each call on the settings file has come. -/
structure Calls (ι : Type) where
  fs : FileSystem
  tasks : ι → Task

namespace Calls

variable {ι : Type} [DecidableEq ι]

/-- One call takes its next step. -/
def advance (file : Path) (refusals : Refusals) (i : ι) (calls : Calls ι) : Calls ι :=
  let (next, fs) := (calls.tasks i).step refusals file calls.fs
  ⟨fs, fun j => if j = i then next else calls.tasks j⟩

/-- Calls take steps in the order of a schedule. -/
def run (file : Path) : List (Refusals × ι) → Calls ι → Calls ι
  | [], calls => calls
  | (refusals, i) :: rest, calls => run file rest (calls.advance file refusals i)

end Calls

variable {refusals : Refusals} {file : Path} {fs fs' : FileSystem} {t t' : Task} {temp : Temporary}
  {settings : Members} {key : String} {value : Json} {a : Writing}

/-! ## All steps in a row -/

/-- A number of steps of one call. -/
def Task.steps (refusals : Refusals) (file : Path) : Nat → Task × FileSystem → Task × FileSystem
  | 0, s => s
  | n + 1, (t, fs) => steps refusals file n (t.step refusals file fs)

theorem Task.steps_of_ended {n : Nat} {result : Except Error Unit} (h : t.result? = some result) :
    Task.steps refusals file n (t, fs) = (t, fs) := by
  induction n with
  | zero => rfl
  | succ n ih =>
    have stays : t.step refusals file fs = (t, fs) := by
      cases t <;> first | rfl | cases h
    rw [steps, stays, ih]

theorem steps_goOn {α : Type} {n : Nat} {next : α → Task} {onward : α → FileSystem → Step Unit}
    (step : Step α) (h : ∀ x fs, Task.steps refusals file n (next x, fs) =
      a.goOn (fun () => .written a) (onward x fs)) :
    Task.steps refusals file n (a.goOn next step) =
      a.goOn (fun () => .written a) (step.andThen onward) := by
  obtain ⟨result, fs⟩ := step
  cases result with
  | ok x => exact h x fs
  | error fault => exact Task.steps_of_ended rfl

theorem steps_save : Task.steps refusals file 5 (.making a, fs) =
    a.goOn (fun () => .written a) (save refusals file a.changed fs) := by
  refine steps_goOn _ fun dir fs => ?_
  refine steps_goOn _ fun temp fs => ?_
  refine steps_goOn _ fun () fs => ?_
  exact steps_goOn _ fun () fs => rfl

/-- A set is its six steps in a row. -/
theorem set_eq_steps (refusals : Refusals) (file : Path) (key : String) (value : Json)
    (fs : FileSystem) :
    let last := Task.steps refusals file 6 (.called (.set key value), fs)
    last.1.result? = some (set refusals file key value fs).result ∧
      last.2 = (set refusals file key value fs).state := by
  intro last
  cases read : load file key fs with
  | error e =>
    have ended : last = (.unread e, fs) := by
      unfold last Task.steps
      simp only [Task.step, Task.reading, read]
      exact Task.steps_of_ended rfl
    rw [ended, set, read]
    exact ⟨rfl, rfl⟩
  | ok settings =>
    have saved : last = Writing.goOn ⟨key, value, settings⟩
        (fun () => .written ⟨key, value, settings⟩)
        (save refusals file (settings.upsert key value) fs) := by
      unfold last Task.steps
      simp only [Task.step, Task.reading, read]
      exact steps_save
    rw [saved]
    simp only [set, read]
    cases save refusals file (settings.upsert key value) fs with
    | mk result left => cases result <;> exact ⟨rfl, rfl⟩

/-! ## What one step does -/

/-- What a step does to the file system: nothing, or one thing to directories, to the temporary file
of the call or to the settings file. -/
inductive Effect (file : Path) (fs : FileSystem) : Task → Task → FileSystem → Prop
  | nothing {t t' : Task} (same : t'.temporary? = t.temporary?) : Effect file fs t t' fs
  | made {t t' : Task} (before : t.temporary? = none) (behind : t'.temporary? = none) :
    Effect file fs t t' (makeParents file fs).2
  | created {refusals : Refusals} {a : Writing} {dir : Location} {temp : Temporary}
    {fs' : FileSystem} (h : createTemporary refusals file dir fs = (.ok temp, fs')) :
    Effect file fs (.creating a dir) (.writing a temp) fs'
  | filled (a : Writing) (temp : Temporary) : Effect file fs (.writing a temp) (.syncing a temp)
    (fs.setContent temp.node (.bytes (bytesOf (document a.changed))))
  | removed {t t' : Task} {temp : Temporary} {text : Option String}
    (before : t.temporary? = some (temp, text)) (behind : t'.temporary? = none) :
    Effect file fs t t' (fs.removeEntry temp.location)
  | moved {a : Writing} {temp : Temporary} {fs' : FileSystem}
    (h : fs.rename temp.location file = .ok fs') :
    Effect file fs (.publishing a temp) (.written a) fs'

theorem goOn_cases {α : Type} {next : α → Task} {step : Step α} (h : a.goOn next step = (t', fs')) :
    (∃ x, step = (.ok x, fs') ∧ t' = next x) ∨
      ∃ fault, step = (.error fault, fs') ∧ t' = .abandoned a fault := by
  obtain ⟨result, left⟩ := step
  cases result with
  | ok x =>
    obtain ⟨rfl, rfl⟩ := Prod.mk.inj h
    exact .inl ⟨x, rfl, rfl⟩
  | error fault =>
    obtain ⟨rfl, rfl⟩ := Prod.mk.inj h
    exact .inr ⟨fault, rfl, rfl⟩

theorem reading_cases {result : Except Error Members} {next : Members → Task}
    (h : (Task.reading result next, fs) = (t', fs')) : fs' = fs ∧
      ((∃ settings, result = .ok settings ∧ t' = next settings) ∨
        ∃ e, result = .error e ∧ t' = .unread e) := by
  obtain ⟨rfl, rfl⟩ := Prod.mk.inj h
  cases result with
  | ok settings => exact ⟨rfl, .inl ⟨settings, rfl, rfl⟩⟩
  | error e => exact ⟨rfl, .inr ⟨e, rfl, rfl⟩⟩

theorem effect_of_step (h : t.step refusals file fs = (t', fs')) : Effect file fs t t' fs' := by
  cases t with
  | called call =>
    cases call with
    | get | set =>
      obtain ⟨rfl, ⟨_, -, rfl⟩ | ⟨_, -, rfl⟩⟩ := reading_cases h
      · exact .nothing rfl
      · exact .nothing rfl
  | making a =>
    rcases goOn_cases h with ⟨dir, made, rfl⟩ | ⟨fault, made, rfl⟩
    · obtain rfl : (makeParents file fs).2 = fs' := by rw [made]
      exact .made rfl rfl
    · obtain rfl : (makeParents file fs).2 = fs' := by rw [made]
      exact .made rfl rfl
  | creating a dir =>
    rcases goOn_cases h with ⟨temp, created, rfl⟩ | ⟨fault, refused, rfl⟩
    · exact .created created
    · obtain rfl := createTemporary_eq_error refused
      exact .nothing rfl
  | writing a temp =>
    rcases goOn_cases h with ⟨_, filled, rfl⟩ | ⟨fault, refused, rfl⟩
    · obtain rfl := writeTemporary_eq_ok filled
      exact .filled a temp
    · obtain rfl := writeTemporary_eq_error refused
      exact .removed rfl rfl
  | syncing a temp =>
    rcases goOn_cases h with ⟨_, synced, rfl⟩ | ⟨fault, refused, rfl⟩
    · obtain rfl := syncTemporary_eq_ok synced
      exact .nothing rfl
    · obtain rfl := syncTemporary_eq_error refused
      exact .removed rfl rfl
  | publishing a temp =>
    rcases goOn_cases h with ⟨_, moved, rfl⟩ | ⟨fault, refused, rfl⟩
    · exact .moved (publish_eq_ok moved)
    · obtain rfl := publish_eq_error refused
      exact .removed rfl rfl
  | answered | unread | written | abandoned =>
    obtain ⟨rfl, rfl⟩ := Prod.mk.inj h
    exact .nothing rfl

/-! ## What one step reads -/

/-- A call stays what it is, unless it fails to read the settings. -/
theorem call?_of_step (h : t.step refusals file fs = (t', fs')) :
    t'.call? = t.call? ∨ ∃ key e, load file key fs = .error e := by
  cases t with
  | called call =>
    cases call with
    | get key | set key value =>
      obtain ⟨-, ⟨_, -, rfl⟩ | ⟨e, failed, -⟩⟩ := reading_cases h
      · exact .inl rfl
      · exact .inr ⟨key, e, failed⟩
  | making | creating | writing | syncing | publishing =>
    rcases goOn_cases h with ⟨_, -, rfl⟩ | ⟨_, -, rfl⟩ <;> exact .inl rfl
  | answered | unread | written | abandoned =>
    obtain ⟨rfl, -⟩ := Prod.mk.inj h
    exact .inl rfl

/-- What a call has read it has read at once. -/
theorem read?_of_step {read : Members} (h : t.step refusals file fs = (t', fs'))
    (there : t'.read? = some read) : t.read? = some read ∨ ∃ key, load file key fs = .ok read := by
  cases t with
  | called call =>
    cases call with
    | get key | set key value =>
      obtain ⟨-, ⟨settings, found, rfl⟩ | ⟨_, -, rfl⟩⟩ := reading_cases h
      · obtain rfl : settings = read := Option.some.inj there
        exact .inr ⟨key, found⟩
      · cases there
  | making | creating | writing | syncing | publishing =>
    rcases goOn_cases h with ⟨_, -, rfl⟩ | ⟨_, -, rfl⟩ <;> exact .inl there
  | answered | unread | written | abandoned =>
    obtain ⟨rfl, -⟩ := Prod.mk.inj h
    exact .inl there

/-- What a set has written stays written. -/
theorem step_written : (Task.written a).step refusals file fs = (.written a, fs) := rfl

end CobolDialects.Settings.File
