import CobolDialects.Proofs.Settings.DatabaseFile
import CobolDialects.Proofs.Settings.File
import CobolDialects.Proofs.Settings.Operation

/-!
# Stores agree

What is asked of a store that is empty at first is answered alike by a table in memory, by a
settings file and by a database, as long as nothing below the store fails. So a client cannot tell
them apart.
-/

namespace CobolDialects.Settings

/-- The answers to operations that follow one another, each on the store as it is at its turn. -/
def answers {σ : Type} (stores : Nat → Store σ) (operations : List Operation) (s : σ) :
    List (Except Error Answer) :=
  (Action.inTurn stores (operations.map Operation.action) s).1

/-- The engine on which a store has been opened, in the database at a path or in a new one in
memory. -/
inductive DatabaseFile.Opened (slot : Nat) : Engine → Prop
  | atPath {e : Engine} (sound : e.Sound) (path : Path)
      (done : (openPath path e).result = .ok slot) :
    Opened slot (openPath path e).state
  | inMemory {e : Engine} (sound : e.Sound) (done : (openInMemory e).result = .ok slot) :
    Opened slot (openInMemory e).state

theorem DatabaseFile.Opened.holding {slot : Nat} {e : Engine} (h : Opened slot e) :
    Engine.Holding slot True e := by
  cases h with
  | atPath sound path done => exact openPath_holding sound path done
  | inMemory sound done => exact connect_holding sound _ done

variable {σ : Type} {holds : σ → Members → Prop} {fault : Error → Prop}
  {operations : List Operation}

/-- A store that keeps a table answers as a table in memory does. -/
theorem answers_eq_of_keeps {stores : Nat → Store σ} (keeps : ∀ n, Keeps (stores n) holds fault)
    (storable : ∀ key value, .set key value ∈ operations → Storable value) {s : σ}
    (start : holds s [])
    (noFault : ∀ answer ∈ answers stores operations s, ¬Action.Faulty fault answer) :
    answers stores operations s = answers (fun _ => Memory.store) operations [] := by
  have careful : ∀ a ∈ operations.map Operation.action, a.Careful := by
    intro a there
    obtain ⟨o, inside, rfl⟩ := List.mem_map.mp there
    exact Operation.careful_action fun key value same => storable key value (same ▸ inside)
  exact (Action.inTurn_gives keeps careful start noFault).1

/-- Operations of any kind, in any order, get the same answers from a settings file and from a
database as from a table in memory. The values that are set have to be storable; of what the catalog
sets nothing is asked. -/
theorem stores_agree (operations : List Operation)
    (storable : ∀ key value, .set key value ∈ operations → Storable value) {file : Path}
    {fs : FileSystem} (unsetInFile : ∀ key, (File.get file key fs).result = .ok none)
    (refusals : Nat → File.Refusals)
    (noIoFault : ∀ answer ∈ answers (fun n => File.store (refusals n) file) operations fs,
      ¬Action.Faulty (·.className = "Io") answer)
    {slot : Nat} {e : Engine} (opened : DatabaseFile.Opened slot e)
    (unsetInDatabase : ∀ key, (DatabaseFile.get slot key e).result = .ok none) (times : Nat → Int)
    (noDatabaseFault : ∀ answer ∈ answers (fun n => DatabaseFile.store (times n) slot) operations e,
      ¬Action.Faulty (·.className = "Database") answer) :
    answers (fun n => File.store (refusals n) file) operations fs =
        answers (fun _ => Memory.store) operations [] ∧
      answers (fun n => DatabaseFile.store (times n) slot) operations e =
        answers (fun _ => Memory.store) operations [] := by
  constructor
  · exact answers_eq_of_keeps (fun n => File.keeps (refusals n) file) storable
      (File.holds_nil unsetInFile) noIoFault
  · exact answers_eq_of_keeps (fun n => DatabaseFile.keeps (times n) slot) storable
      (DatabaseFile.holds_nil opened.holding unsetInDatabase) noDatabaseFault

/-- A list, a null in its place that is no list, and texts that have to be escaped. -/
theorem stores_agree_on_null :
    let d : Descriptor := ⟨"a\"\n", "\\", "", "é"⟩
    let operations : List Operation :=
      [.list "k", .register "k" d, .find "k" d.name, .set "k" .null, .get "k", .list "k"]
    let opened := DatabaseFile.openPath (bytesOf "db") (.onFiles .empty)
    answers (fun _ => File.store .none (bytesOf "s")) operations .empty =
        answers (fun _ => Memory.store) operations [] ∧
      answers (fun _ => DatabaseFile.store 0 0) operations opened.state =
        answers (fun _ => Memory.store) operations [] := by
  intro d operations opened
  have storable : ∀ key value, .set key value ∈ operations → Storable value := by
    intro key value there
    obtain ⟨rfl, rfl⟩ : key = "k" ∧ value = .null := by simpa [operations] using there
    exact ⟨rfl, rfl, by decide⟩
  have done : opened.result = .ok 0 := by with_unfolding_all rfl
  exact stores_agree operations storable (fun _ => rfl) (fun _ => .none) (by decide +kernel)
    (.atPath (Engine.sound_onFiles FileSystem.sound_empty) _ done)
    (fun _ => by with_unfolding_all rfl)
    (fun _ => 0) (by decide +kernel)

end CobolDialects.Settings
