import CobolDialects.Proofs.FileSystem.Kinds
import CobolDialects.Settings.File

/-!
# Saving a settings file

A save that succeeds has taken all its steps. What they leave behind is a file with the new document
to which the path leads, unless there was no file before. Whether a save succeeds has nothing to do
with what is written.
-/

namespace CobolDialects.Settings.File

open FileSystem

variable {refusals : Refusals} {file : Path} {fs saved : FileSystem} {temp : Temporary}

namespace Step

variable {α β : Type} {step : Step α} {next : α → FileSystem → Step β}

theorem andThen_eq_ok {b : β} : step.andThen next = (.ok b, saved) ↔
    ∃ a mid, step = (.ok a, mid) ∧ next a mid = (.ok b, saved) := by
  obtain ⟨result, mid⟩ := step
  cases result with
  | ok a => exact ⟨fun h => ⟨a, mid, rfl, h⟩, fun ⟨_, _, same, h⟩ => by cases same; exact h⟩
  | error fault => simp [Step.andThen]

theorem refusing_eq_ok {refusal : Option Fault} {a : α}
    (h : refusing refusal fs step = (.ok a, saved)) :
    step = (.ok a, saved) := by
  cases refusal with
  | none => exact h
  | some fault => simp [refusing] at h

theorem cleaning_eq_ok {a : α} (h : cleaning temp step = (.ok a, saved)) :
    step = (.ok a, saved) := by
  obtain ⟨result, mid⟩ := step
  cases result with
  | ok b => exact h
  | error fault => simp [cleaning] at h

end Step

/-! ## The steps -/

theorem grown_makeParents : (makeParents file fs).2.Grown fs := by
  have grown : (if file.directory?.isSome then fs.makeDirectories (file.directory?.getD Path.dot)
      else (.ok (), fs)).2.Grown fs := by
    split_ifs
    · exact grown_makeDirectories
    · exact .refl fs
  unfold makeParents
  simp only
  split
  · rename_i fault made h
    rw [h] at grown
    exact grown
  · rename_i made h
    rw [h] at grown
    exact grown

theorem createTemporary_eq_ok {dir : Location}
    (h : createTemporary refusals file dir fs = (.ok temp, saved)) :
    temp = ⟨dir ++ [fs.freshName dir file.names.getLast?], fs.nodes.length⟩ ∧
      saved = fs.addFile (dir ++ [fs.freshName dir file.names.getLast?])
        ⟨.bytes [], privateMode⟩ := by
  obtain ⟨same, rfl⟩ := Prod.mk.inj (Step.refusing_eq_ok h)
  exact ⟨(Except.ok.inj same).symm, rfl⟩

theorem writeTemporary_eq_ok {text : String}
    (h : writeTemporary refusals temp text fs = (.ok (), saved)) :
    saved = fs.setContent temp.node (.bytes (bytesOf text)) :=
  (Prod.mk.inj (Step.refusing_eq_ok (Step.cleaning_eq_ok h))).2.symm

theorem syncTemporary_eq_ok (h : syncTemporary refusals temp fs = (.ok (), saved)) : saved = fs :=
  (Prod.mk.inj (Step.refusing_eq_ok (Step.cleaning_eq_ok h))).2.symm

theorem publish_eq_ok (h : publish refusals temp file fs = (.ok (), saved)) :
    fs.rename temp.location file = .ok saved := by
  have moves := Step.refusing_eq_ok (Step.cleaning_eq_ok h)
  split at moves
  · rename_i moved renamed
    rw [renamed, (Prod.mk.inj moves).2]
  · cases (Prod.mk.inj moves).1

/-! ## A save that succeeds -/

section Ready

variable {dir : Location} {made : FileSystem} {text : String}

/-- Where a temporary file comes to stand. -/
def temporaryAt (file : Path) (dir : Location) (made : FileSystem) : Location :=
  dir ++ [made.freshName dir file.names.getLast?]

/-- The file system right before the temporary file is moved. -/
def ready (file : Path) (text : String) (dir : Location) (made : FileSystem) : FileSystem :=
  (made.addFile (temporaryAt file dir made) ⟨.bytes [], privateMode⟩).setContent made.nodes.length
    (.bytes (bytesOf text))

theorem entry?_temporaryAt : made.entry? (temporaryAt file dir made) = none :=
  (freshName_spec made dir file.names.getLast?).1

theorem entry?_ready (at_ : Location) : entry? (ready file text dir made) at_ =
    if at_ = temporaryAt file dir made then some (.file made.nodes.length)
    else made.entry? at_ := by
  rw [ready, entry?_setContent, addFile, entry?_setEntry (by simp [temporaryAt])]
  rfl

theorem extends_ready : (ready file text dir made).Extends made := by
  intro at_ entry there
  rw [entry?_ready, if_neg, there]
  rintro rfl
  rw [entry?_temporaryAt] at there
  cases there

theorem contentOf_ready :
    (ready file text dir made).contentOf made.nodes.length = bytesOf text := contentOf_new _ _

theorem save_eq_ok {settings : Members} (h : save refusals file settings fs = (.ok (), saved)) :
    ∃ dir made, makeParents file fs = (.ok dir, made) ∧
      (ready file (document settings) dir made).rename (temporaryAt file dir made) file =
        .ok saved := by
  unfold save at h
  obtain ⟨dir, made, parents, h⟩ := Step.andThen_eq_ok.mp h
  obtain ⟨temp, created, create, h⟩ := Step.andThen_eq_ok.mp h
  obtain ⟨_, written, write, h⟩ := Step.andThen_eq_ok.mp h
  obtain ⟨_, synced, sync, h⟩ := Step.andThen_eq_ok.mp h
  obtain ⟨rfl, rfl⟩ := createTemporary_eq_ok create
  obtain rfl := writeTemporary_eq_ok write
  obtain rfl := syncTemporary_eq_ok sync
  exact ⟨dir, made, parents, publish_eq_ok h⟩

/-- The temporary file is no directory and no link. -/
theorem entry?_of_ready {at_ : Location} {entry : Entry}
    (h : FileSystem.entry? (ready file text dir made) at_ = some entry)
    (other : ∀ n, entry ≠ .file n) : made.entry? at_ = some entry := by
  rw [entry?_ready] at h
  split_ifs at h
  · exact absurd (Option.some.inj h).symm (other _)
  · exact h

theorem circular_of_ready (h : Circular (ready file text dir made) file) : Circular made file :=
  h.mono rfl (fun _ directory => entry?_of_ready directory fun _ => Entry.noConfusion)
    fun _ _ link => entry?_of_ready link fun _ => Entry.noConfusion

theorem entry?_temporary : entry? (ready file text dir made) (temporaryAt file dir made) =
    some (.file made.nodes.length) := by
  rw [entry?_ready, if_pos rfl]

/-- The path leads to the file that was moved, or a file on the way is in its way. -/
theorem fileNode_of_ready (h : (ready file text dir made).rename (temporaryAt file dir made) file =
    .ok saved) : saved.fileNode file = .ok made.nodes.length ∨
      saved.fileNode file = .error .notDirectory ∧ Circular made file :=
  (fileNode_of_rename h entry?_temporary).imp_right (And.imp_right circular_of_ready)

theorem readText_of_ready (h : (ready file text dir made).rename (temporaryAt file dir made) file =
    .ok saved) : saved.readText file = .ok text ∨
      saved.readText file = .error .notDirectory ∧ Circular made file := by
  have content : saved.contentOf made.nodes.length = bytesOf text := by
    obtain ⟨dir, name, entry, -, -, -, -, -, -, -, rfl⟩ := rename_eq_ok h
    exact contentOf_ready
  rcases fileNode_of_ready h with found | ⟨lost, circular⟩
  · refine .inl ?_
    simp only [readText, FileSystem.read, found, Except.map, content, textOf?_bytesOf]
  · refine .inr ⟨?_, circular⟩
    simp only [readText, FileSystem.read, lost, Except.map]

end Ready

/-- The path leads to the new document, or a file on the way is in its way, since with the
directories above it made the path leads by way of its own last name. -/
theorem readText_of_save {settings : Members}
    (h : save refusals file settings fs = (.ok (), saved)) :
    saved.readText file = .ok (document settings) ∨
      saved.readText file = .error .notDirectory ∧ Circular (makeParents file fs).2 file := by
  obtain ⟨dir, made, parents, renamed⟩ := save_eq_ok h
  rw [parents]
  exact readText_of_ready renamed

/-! ## What the result depends on -/

/-- The refusal that a save comes to if nothing else is in its way. -/
def Refusals.first? (refusals : Refusals) : Option Fault :=
  refusals.create <|> refusals.write <|> refusals.sync <|> refusals.rename

theorem publish_result : (publish refusals temp file fs).1 =
    match refusals.rename with
    | some fault => .error fault
    | none => (fs.rename temp.location file).map fun _ => () := by
  unfold publish
  cases refusals.rename with
  | some fault => rfl
  | none => cases fs.rename temp.location file <;> rfl

/-- Once the directories above the file are made, a save comes to the first refusal, or else it
depends on whether there is room at the path. -/
theorem save_result_of_parents {dir : Location} {made : FileSystem}
    (h : makeParents file fs = (.ok dir, made)) (refusals : Refusals) (settings : Members) :
    (save refusals file settings fs).1 =
      match refusals.first? with
      | some fault => .error fault
      | none => (ready file "" dir made).room file := by
  obtain ⟨create, write, sync, rename⟩ := refusals
  unfold save createTemporary writeTemporary syncTemporary
  rw [h]
  cases create with
  | some fault => rfl
  | none =>
    cases write with
    | some fault => rfl
    | none =>
      cases sync with
      | some fault => rfl
      | none =>
        cases rename with
        | some fault => rfl
        | none =>
          have kinds : SameKinds (ready file (document settings) dir made)
              (ready file "" dir made) :=
            ⟨fun _ => rfl, rfl⟩
          have there := @entry?_ready file dir made (document settings) (temporaryAt file dir made)
          rw [if_pos rfl] at there
          exact publish_result.trans ((rename_result there).trans kinds.room)

/-- Whether settings can be saved has nothing to do with what they are. -/
theorem save_result (refusals : Refusals) (file : Path) (settings others : Members)
    (fs : FileSystem) :
    (save refusals file settings fs).1 = (save refusals file others fs).1 := by
  cases parents : makeParents file fs with
  | mk result made =>
    cases result with
    | error fault => simp only [save, parents, Step.andThen]
    | ok dir => rw [save_result_of_parents parents, save_result_of_parents parents]

end CobolDialects.Settings.File
