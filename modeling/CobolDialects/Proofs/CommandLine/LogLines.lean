import CobolDialects.CommandLine.Run
import CobolDialects.Proofs.Engine.Adopting
import CobolDialects.Proofs.Settings.Again

/-!
# Opening a log and writing to it

Opening a log adds entries to the file system, and its lines are added to a file that holds bytes.
So files that can be read already are read as before, and neither a settings file nor a database
that is not the log itself is touched.
-/

namespace CobolDialects

namespace FileSystem

variable {fs opened : FileSystem} {n m : Nat} {bytes : Bytes} {p : Path} {at_ dir : Location}
  {name : Name} {names : List Name} {follow : Bool} {text : String}

/-! ## Adding bytes to a file -/

@[simp] theorem entry?_appendContent (at_ : Location) :
    entry? (fs.appendContent n bytes) at_ = fs.entry? at_ := rfl

@[simp] theorem length_appendContent :
    (fs.appendContent n bytes).nodes.length = fs.nodes.length := List.length_modify ..

theorem node?_appendContent_of_ne (ne : m ≠ n) :
    (fs.appendContent n bytes).node? m = fs.node? m := by
  simp [node?, appendContent, ne.symm]

/-- A file that an engine keeps takes no bytes. -/
theorem node?_appendContent_of_kept {node : Node} (there : fs.node? m = some node)
    (kept : ∀ old, node.content ≠ .bytes old) : (fs.appendContent n bytes).node? m = some node := by
  by_cases same : m = n
  · subst same
    unfold node? at there
    simp only [node?, appendContent, List.getElem?_modify_eq, there]
    cases node with
    | mk content mode =>
      cases content with
      | bytes old => exact absurd rfl (kept old)
      | database | log | logIndex => rfl
  · rw [node?_appendContent_of_ne same, there]

/-- A path is looked up without regard to what files hold. -/
theorem fileNode_appendContent : (fs.appendContent n bytes).fileNode p = fs.fileNode p := by
  have alike : Alike (fun _ => False) (fs.appendContent n bytes) fs := ⟨fun _ _ _ => rfl, rfl⟩
  exact alike.fileNode (Settings.File.clear_nothing fs) (Settings.File.visible_nothing _)

theorem Varies.appendContent {places : List Location} {base : FileSystem}
    (h : Varies places base fs) : Varies places base (fs.appendContent n bytes) :=
  ⟨h.working, h.elsewhere, h.plain⟩

theorem readText_appendContent (other : fs.fileNode p ≠ .ok n) :
    (fs.appendContent n bytes).readText p = fs.readText p := by
  have node : (fs.appendContent n bytes).fileNode p = fs.fileNode p := fileNode_appendContent
  unfold readText FileSystem.read
  rw [node]
  cases found : fs.fileNode p with
  | error fault => rfl
  | ok m =>
    have ne : m ≠ n := by
      rintro rfl
      exact other found
    simp only [Except.map, contentOf_congr (node?_appendContent_of_ne ne)]

/-! ## Opening a file -/

/-- There are more entries, and more files, which are empty. -/
structure Widened (fs opened : FileSystem) : Prop where
  entries : opened.Extends fs
  working : opened.working = fs.working
  content : ∀ m, opened.contentOf m = fs.contentOf m
  nodes : fs.nodes <+: opened.nodes
  sound : fs.Sound → opened.Sound

theorem Widened.trans {mid : FileSystem} (h : Widened fs mid) (h' : Widened mid opened) :
    Widened fs opened where
  entries := h'.entries.trans h.entries
  working := h'.working.trans h.working
  content m := (h'.content m).trans (h.content m)
  nodes := h.nodes.trans h'.nodes
  sound := h'.sound ∘ h.sound

theorem Grown.widened (h : opened.Grown fs) : Widened fs opened where
  entries := h.entries
  working := h.working
  content m := contentOf_congr (by rw [node?, node?, h.nodes])
  nodes := h.nodes ▸ List.prefix_rfl
  sound sound := sound.of_subset (Nat.le_of_eq (congrArg _ h.nodes.symm)) h.files

theorem widened_openFile (h : fs.openFile p = .ok (n, opened)) : Widened fs opened := by
  unfold openFile at h
  split at h
  · cases h
  · cases h
  · cases h
    exact ⟨.refl _, rfl, fun _ => rfl, List.prefix_rfl, id⟩
  · cases h
  · rename_i dir name walked _
    cases h
    refine ⟨extends_addFile (fits_of_walkLinks walked) _, rfl, fun m => ?_, List.prefix_append _ _,
      fun sound => sound.addFile _ _⟩
    rcases Nat.lt_trichotomy m fs.nodes.length with lt | rfl | gt
    · exact contentOf_congr (node?_addFile_of_lt lt)
    · simp [contentOf, node?, addFile, addNode, setEntry, Content.shown]
    · have beyond : fs.nodes[m]? = none := List.getElem?_eq_none (Nat.le_of_lt gt)
      have still : (fs.nodes ++ [⟨.bytes [], publicMode⟩])[m]? = none :=
        List.getElem?_eq_none (by simpa [Nat.succ_le_iff] using gt)
      simp [contentOf, node?, addFile, addNode, setEntry, beyond, still]

/-- What can be read can still be read. -/
theorem Widened.readText (h : Widened fs opened) (read : fs.readText p = .ok text) :
    opened.readText p = .ok text := by
  unfold FileSystem.readText FileSystem.read at read ⊢
  cases node : fs.fileNode p with
  | error fault =>
    rw [node] at read
    cases read
  | ok m =>
    rw [node] at read
    rw [h.entries.fileNode h.working node]
    simp only [Except.map, h.content] at read ⊢
    exact read

end FileSystem

/-! ## Databases -/

namespace Engine

variable {e : Engine} {base : FileSystem} {at_ : Location} {f : Files} {slots : Set Nat}
  {db : Database} {content : Content} {n m : Nat} {bytes : Bytes}

/-- The engine for which bytes have been added to a file. -/
def withLines (e : Engine) (n : Nat) (bytes : Bytes) : Engine :=
  e.setFiles (e.files.appendContent n bytes)

theorem content_withLines_of_kept (kept : ∀ old, e.content m ≠ .bytes old) :
    (e.withLines n bytes).content m = e.content m := by
  unfold Engine.content at kept ⊢
  cases there : e.files.node? m with
  | none => simp [there] at kept
  | some node =>
    have same : (e.withLines n bytes).files.node? m = some node :=
      FileSystem.node?_appendContent_of_kept there fun old => by simpa [there] using kept old
    rw [same]

/-- A file that holds bytes goes on doing so. -/
theorem content_withLines_of_bytes {old : Bytes} (holds : e.content m = .bytes old) :
    ∃ new, (e.withLines n bytes).content m = .bytes new := by
  by_cases same : m = n
  · subst same
    unfold Engine.content at holds ⊢
    simp only [withLines, setFiles, FileSystem.node?, FileSystem.appendContent,
      List.getElem?_modify_eq] at holds ⊢
    cases there : e.files.nodes[m]? with
    | none => exact ⟨[], rfl⟩
    | some node =>
      rw [there] at holds
      obtain ⟨content, mode⟩ := node
      obtain rfl : content = .bytes old := holds
      exact ⟨old ++ bytes, rfl⟩
  · refine ⟨old, ?_⟩
    unfold Engine.content at holds ⊢
    rw [← holds]
    simp only [withLines, setFiles, FileSystem.node?_appendContent_of_ne same]

theorem reach_withLines : (e.withLines n bytes).reach m = e.reach m := by
  unfold reach
  cases holds : e.content m with
  | bytes old =>
    obtain ⟨new, still⟩ : ∃ new, (e.withLines n bytes).content m = .bytes new :=
      content_withLines_of_bytes holds
    rw [still]
  | database | log | logIndex =>
    rw [content_withLines_of_kept (by simp [holds]), holds]

theorem Logged.withLines (h : Logged base at_ f db e) :
    Logged base at_ f db (e.withLines n bytes) where
  varies := h.varies.appendContent
  database := h.database
  log := h.log
  index := h.index
  journal := h.journal
  bounds := by simpa [Engine.withLines, setFiles] using h.bounds
  apart := h.apart
  told := by
    obtain ⟨old, holds, logged, told⟩ := h.told
    refine ⟨old, (content_withLines_of_kept (by simp [holds])).trans holds, logged, ?_⟩
    rw [reach_withLines]
    rcases told with unreached | ⟨l, log, state⟩
    · exact .inl unreached
    · exact .inr ⟨l, (content_withLines_of_kept (by simp [log])).trans log, state⟩
  asks := h.asks

theorem Shared.withLines (h : Shared base at_ f slots db e) :
    Shared base at_ f slots db (e.withLines n bytes) := ⟨h.files.withLines, h.joined, h.opened⟩

/-- A database that asks for a log is not mistaken for an empty file. -/
theorem Resting.withLines (h : Resting base at_ db e) (asks : db.logged = true) :
    Resting base at_ db (e.withLines n bytes) where
  varies := h.varies.appendContent
  log := h.log
  index := h.index
  journal := h.journal
  database := by
    rcases h.database with ⟨-, rfl⟩ | ⟨m, bound, file, holds⟩
    · cases asks
    · refine .inr ⟨m, by simpa [Engine.withLines, setFiles] using bound, file, ?_⟩
      rw [content_withLines_of_kept (fun old same => ?_), holds]
      rw [same, Content.asDatabase] at holds
      split_ifs at holds
      cases holds
      cases asks
  closed := h.closed

end Engine

/-! ## The log -/

namespace CommandLine

open FileSystem

theorem widened_openLog (path : Path) (fs : FileSystem) : Widened fs (openLog path fs).2 := by
  have grown := (@grown_makeDirectories fs (path.directory?.getD [])).widened
  unfold openLog
  split <;> rename_i done <;> rw [done] at grown
  · exact grown
  · split
    · rename_i opens
      exact grown.trans (widened_openFile opens)
    · exact grown

end CommandLine

end CobolDialects
