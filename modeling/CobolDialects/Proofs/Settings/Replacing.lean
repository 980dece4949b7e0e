import CobolDialects.Proofs.Settings.Again
import CobolDialects.Proofs.Settings.File

/-!
# What a set leaves behind

Reading a settings file follows links, moving the new one to its path does not. So a set that
succeeds puts a new file in the place of whatever the path named itself, be it a link or one of the
names of a file; the file that was read stays as it is. Besides, directories are there that were
missing above the path, and nothing else.
-/

namespace CobolDialects.Settings.File

open FileSystem

variable {refusals : Refusals} {file : Path} {fs made saved : FileSystem} {at_ dir : Location}
  {text : String} {node : Node} {place : Place}

/-! ## Paths that lead to a place -/

/-- The directory above a path is there if the path leads to something, or to a name that is
free. -/
theorem housed_of_lookup {follow : Bool} (h : fs.lookup follow file = .ok place) :
    Housed file fs := by
  intro dir directory
  obtain ⟨more, some, plain, steps⟩ := exists_steps_behind directory
  have plainDir := trailingSlash_not_mem_steps dir
  have plainAll : trailingSlash ∉ dir.steps ++ more := fun inside =>
    (List.mem_append.mp inside).elim plainDir plain
  obtain ⟨check, walk⟩ := lookup_eq_ok.mp h
  rw [steps _ plainDir (filter_steps dir)] at walk
  obtain ⟨used, le, mid, way⟩ := leads_of_walkLinks_append plainAll some walk
  refine isDirectory_iff_leads.mpr ⟨checkPath_directory? directory check, used, le, mid, ?_⟩
  rwa [start_directory? directory]

/-- Then no directories are made. -/
theorem state_makeParents_of_housed (h : Housed file fs) : (makeParents file fs).2 = fs := by
  rw [h.makeParents]

/-- A path that is circular once the directories above it are made, and whose file is missing or
readable, misses some of them. -/
theorem not_housed_of_circular {key : String} {settings : Members}
    (circular : Circular (makeParents file fs).2 file) (read : load file key fs = .ok settings) :
    ¬Housed file fs := by
  intro housed
  rw [state_makeParents_of_housed housed] at circular
  rcases circular.fileNode with never | never
  · simp [load, readText_of_fileNode never] at read
  · simp [load, readText_of_fileNode never] at read

/-! ## The file system behind a move -/

/-- A new file is in the place of what was at one location, and all else is as it was, but for
directories that a save makes above the path if they are missing. -/
structure Replacing (file : Path) (at_ : Location) (node : Node) (after fs : FileSystem) :
    Prop where
  entry : after.entry? at_ = some (.file fs.nodes.length)
  nodes : after.nodes = fs.nodes ++ [node]
  others : ∀ other ≠ at_, after.entry? other = FileSystem.entry? (makeParents file fs).2 other
  made : Deepened (parents file) (makeParents file fs).2 fs
  working : after.working = fs.working

theorem nodes_ready : (ready file text dir made).nodes =
    made.nodes ++ [⟨.bytes (bytesOf text), privateMode⟩] := by
  have last (nodes : List Node) (node : Node) (change : Node → Node) :
      (nodes ++ [node]).modify nodes.length change = nodes ++ [change node] := by
    induction nodes with
    | nil => rfl
    | cons first nodes ih => exact congrArg (first :: ·) ih
  exact last made.nodes _ _

theorem target_of_ready (h : (ready file text dir made).target file = .ok at_) :
    made.target file = .ok at_ := by
  obtain ⟨above, name, check, names, noSlash, proper, walk, rfl⟩ := target_eq_ok.mp h
  have plain : trailingSlash ∉ file.names.dropLast := fun inside =>
    trailingSlash_not_mem_names file (List.dropLast_subset _ inside)
  obtain ⟨used, le, way⟩ := leads_of_walkLinks plain walk
  -- No way leads through the temporary file.
  have old : Leads made used (made.start file) file.names.dropLast above :=
    way.mono (fun _ directory => entry?_of_ready directory fun _ => Entry.noConfusion)
      fun _ _ link => entry?_of_ready link fun _ => Entry.noConfusion
  exact target_eq_ok.mpr ⟨above, name, check, names, noSlash, proper, old.walkLinks le plain, rfl⟩

/-- A move of the temporary file replaces what is at the place to which the path leads. -/
theorem replacing_of_ready (parents : makeParents file fs = (.ok dir, made))
    (move : (ready file text dir made).rename (temporaryAt file dir made) file = .ok saved) :
    ∃ place, made.lookup false file = .ok place ∧
      Replacing file (locationOf place) ⟨.bytes (bytesOf text), privateMode⟩ saved fs ∧
      ((∀ follow, saved.lookup follow file =
          .ok (.found (locationOf place) (.file fs.nodes.length))) ∨
        (∀ follow, saved.lookup follow file = .error .notDirectory) ∧ Circular made file) := by
  obtain ⟨at_, stands, -, rfl, way⟩ := lookup_of_rename move entry?_temporary
  have target := target_of_ready stands
  obtain ⟨place, lookup, rfl⟩ := lookup_of_target target
  have deepened := @deepened_makeParents file fs
  rw [parents] at deepened
  have nodes : made.nodes = fs.nodes := deepened.nodes
  rw [nodes] at way
  have proper : locationOf place ≠ [] := by
    obtain ⟨_, _, -, -, -, -, -, same⟩ := target_eq_ok.mp target
    simp [same]
  refine ⟨place, lookup, ⟨?_, ?_, fun other ne => ?_, deepened_makeParents, deepened.working⟩, ?_⟩
  · rw [entry?_setEntry proper, if_pos rfl, nodes]
  · rw [← nodes]
    exact nodes_ready
  · have temporary := @entry?_temporary file dir made text
    rw [entry?_move proper (ne_nil_of_file temporary), if_neg ne, entry?_ready, parents]
    split_ifs with same
    · rw [same]
      exact entry?_temporaryAt.symm
    · rfl
  · rw [nodes]
    exact way.imp_right (And.imp_right circular_of_ready)

namespace Replacing

variable {after : FileSystem}

/-- The files that were there are as they were, wherever they have a name left. -/
theorem spares_file (h : Replacing file at_ node after fs) (sound : fs.Sound) {other : Location}
    {m : Nat}
    (there : fs.entry? other = some (.file m)) :
    after.node? m = fs.node? m ∧ (other ≠ at_ → after.entry? other = some (.file m)) := by
  constructor
  · rw [node?, h.nodes, List.getElem?_append_left (sound.lt_of_entry there)]
    rfl
  · intro ne
    exact (h.others other ne).trans (h.made.extends other _ there)

/-- There is no file that was not there but the new one. -/
theorem eq_of_file (h : Replacing file at_ node after fs) {other : Location} {m : Nat}
    (there : after.entry? other = some (.file m)) :
    other = at_ ∨ fs.entry? other = some (.file m) := by
  by_cases same : other = at_
  · exact .inl same
  · rw [h.others other same] at there
    rcases h.made.entry other with kept | ⟨-, directory, -⟩
    · exact .inr (kept.symm.trans there)
    · cases directory.symm.trans there

/-- Where no directory was missing, none is made. -/
theorem eq_of_housed (h : Replacing file at_ node after fs) (housed : Housed file fs)
    {other : Location} (ne : other ≠ at_) : after.entry? other = fs.entry? other := by
  rw [h.others other ne, state_makeParents_of_housed housed]

theorem node_new (h : Replacing file at_ node after fs) :
    after.node? fs.nodes.length = some node := by
  rw [node?, h.nodes]
  exact List.getElem?_concat_length

end Replacing

/-! ## A set that succeeds -/

theorem lookup_of_find {follow : Bool} {entry : Entry}
    (h : fs.find follow file = .ok (at_, entry)) :
    fs.lookup follow file = .ok (.found at_ entry) := lookup_eq_ok.mpr (find_eq_ok.mp h)

theorem stat_of_find {n : Nat} (h : fs.find false file = .ok (at_, .file n)) :
    fs.stat file = .ok (.file n, (fs.node? n).map (·.mode)) := by
  simp only [stat, h]

theorem readText_of_find {n mode : Nat} (h : fs.find true file = .ok (at_, .file n))
    (node : fs.node? n = some ⟨.bytes (bytesOf text), mode⟩) : fs.readText file = .ok text := by
  simp [readText, FileSystem.read, fileNode, h, Except.map, contentOf, node, Content.shown]

/-- A set that succeeds has read settings and leaves a new file with the new document, that only its
owner may read, where the path led, its last name not followed, as soon as the directories above it
were there. The path leads to it now, unless it is one that misses directories and, with them made,
leads to a link by way of that link. All other entries are as they were but for the directories that
were made, and none was made if the path led anywhere before; all other files are as they were. So a
link at the path is gone, its file is not, nor is a file made to which it did not lead; the file at
the path goes on under its other names; and there is no new file but the one. -/
theorem set_replaces_entry {key : String} {value : Json} (sound : fs.Sound)
    (ok : (set refusals file key value fs).result = .ok ()) :
    let after := (set refusals file key value fs).state
    let new := fs.nodes.length
    ∃ settings place, load file key fs = .ok settings ∧
      (makeParents file fs).2.lookup false file = .ok place ∧
      let text := document (settings.upsert key value)
      let at_ := locationOf place
      Replacing file at_ ⟨.bytes (bytesOf text), privateMode⟩ after fs ∧
      (after.find false file = .ok (at_, .file new) ∧
          after.stat file = .ok (.file new, some privateMode) ∧ after.readText file = .ok text ∨
        after.stat file = .error .notDirectory ∧ ¬Housed file fs ∧
          Circular (makeParents file fs).2 file) ∧
      (∀ old, fs.lookup false file = .ok old →
        old = place ∧ ∀ other ≠ at_, after.entry? other = fs.entry? other) ∧
      (∀ there target, fs.find false file = .ok (there, .link target) →
        after.find false file = .ok (there, .file new) ∧
        (∀ old m, fs.find true file = .ok (old, .file m) →
          after.entry? old = some (.file m) ∧ after.node? m = fs.node? m) ∧
        ∀ dir name, fs.lookup true file = .ok (.vacant dir name) →
          after.entry? (dir ++ [name]) = none) ∧
      (∀ other m, fs.entry? other = some (.file m) →
        after.node? m = fs.node? m ∧ (other ≠ at_ → after.entry? other = some (.file m))) ∧
      ∀ other m, after.entry? other = some (.file m) →
        other = at_ ∨ fs.entry? other = some (.file m) := by
  intro after new
  obtain ⟨settings, read, done⟩ := save_of_set ok
  obtain ⟨dir, made, parents, move⟩ := save_eq_ok done
  obtain ⟨place, lookup, replacing, way⟩ := replacing_of_ready parents move
  have state : (makeParents file fs).2 = made := by rw [parents]
  refine ⟨settings, place, read, state ▸ lookup, replacing, ?way, ?known, ?link,
    fun _ _ => replacing.spares_file sound, fun _ _ => replacing.eq_of_file⟩
  case way =>
    refine way.imp (fun leads => ?_) fun ⟨lost, circular⟩ => ?_
    · have found (follow : Bool) : after.find follow file = .ok (locationOf place, .file new) := by
        simp only [find, after, leads, new]
      refine ⟨found false, ?_, readText_of_find (found true) replacing.node_new⟩
      rw [stat_of_find (found false), replacing.node_new]
      rfl
    · rw [← state] at circular
      refine ⟨?_, not_housed_of_circular circular read, circular⟩
      simp only [stat, find, after, lost]
  case known =>
    intro old found
    have housed := housed_of_lookup found
    rw [← state, state_makeParents_of_housed housed, found] at lookup
    exact ⟨Except.ok.inj lookup, fun other ne => replacing.eq_of_housed housed ne⟩
  case link =>
    intro there target found
    have before := lookup_of_find found
    have housed := housed_of_lookup before
    have link : fs.entry? there = some (.link target) := fits_of_lookup before
    rw [← state, state_makeParents_of_housed housed, before] at lookup
    obtain rfl := Except.ok.inj lookup
    refine ⟨?_, fun old m follows => ?_, fun above name dangles => ?_⟩
    · rcases way with leads | ⟨-, circular⟩
      · simp only [find, after, leads, locationOf, new]
      · rw [← state] at circular
        exact absurd housed (not_housed_of_circular circular read)
    · have entry : fs.entry? old = some (.file m) := fits_of_lookup (lookup_of_find follows)
      obtain ⟨node, kept⟩ := replacing.spares_file sound entry
      refine ⟨kept ?_, node⟩
      rintro rfl
      cases link.symm.trans entry
    · have free : fs.entry? (above ++ [name]) = none := fits_of_lookup dangles
      refine (replacing.eq_of_housed housed ?_).trans free
      intro same
      rw [same] at free
      cases link.symm.trans free

/-- A link to a file is replaced, and the file stays. -/
theorem set_replaces_link :
    let fs : FileSystem :=
      ⟨[([bytesOf "x"], .file 0), ([bytesOf "s"], .link (bytesOf "x"))],
        [⟨.bytes (bytesOf "\x7b\x7d"), 0o644⟩], []⟩
    let after := (set .none (bytesOf "s") "k" .null fs).state
    fs.Sound ∧ (set .none (bytesOf "s") "k" .null fs).result = .ok () ∧
      after.find false (bytesOf "s") = .ok ([bytesOf "s"], .file 1) ∧
      after.entry? [bytesOf "x"] = some (.file 0) ∧ after.node? 0 = fs.node? 0 := by
  intro fs after
  have sound : fs.Sound := by
    intro at_ n there
    obtain ⟨-, rfl⟩ : at_ = [bytesOf "x"] ∧ n = 0 := by simpa [fs] using there
    exact Nat.zero_lt_one
  have ok : (set .none (bytesOf "s") "k" .null fs).result = .ok () := by cbv
  obtain ⟨settings, place, -, -, -, -, -, link, -⟩ := set_replaces_entry sound ok
  obtain ⟨found, kept, -⟩ := link [bytesOf "s"] (bytesOf "x") (by cbv)
  exact ⟨sound, ok, found, kept [bytesOf "x"] 0 (by cbv)⟩

/-- A path that leads to a link by way of that link is lost when the file takes the place of the
link. -/
theorem path_lost_with_own_link : ∃ fs : FileSystem, fs.Sound ∧
    (set .none (bytesOf "d/../x/x") "k" .null fs).result = .ok () ∧
      (set .none (bytesOf "d/../x/x") "k" .null fs).state.stat (bytesOf "d/../x/x") =
        .error .notDirectory := by
  refine ⟨⟨[([bytesOf "x"], .link (bytesOf "d/.."))], [], []⟩, fun at_ n there => ?_, by cbv,
    by cbv⟩
  simp at there

end CobolDialects.Settings.File
