import CobolDialects.Proofs.Settings.Writers

/-!
# Temporary files side by side

A step of one call leaves the temporary files of all others as they are. It leaves the settings file
as it is, too, unless it moves its own temporary file there.
-/

namespace CobolDialects.Settings.File

open FileSystem

variable {file : Path} {first fs fs' moved : FileSystem} {t t' : Task} {temp : Temporary}
  {text : Option String} {n : Nat} {written : String}

/-! ## Names -/

/-- The names of temporary files. -/
def IsTemporary (name : Name) : Prop := ∃ n, name = temporaryName n

theorem isTemporary_freshName (fs : FileSystem) (dir : Location) (reserved : Option Name) :
    IsTemporary (fs.freshName dir reserved) := by
  unfold freshName
  cases found : ((List.range (fs.entries.length + 2)).map temporaryName).find?
      (fun name => decide (fs.entry? (dir ++ [name]) = none ∧ reserved ≠ some name)) with
  | none => exact ⟨0, rfl⟩
  | some name =>
    obtain ⟨n, -, rfl⟩ := List.mem_map.mp (List.mem_of_find?_eq_some found)
    exact ⟨n, rfl⟩

theorem IsTemporary.starts {name : Name} (h : IsTemporary name) : bytesOf ".tmp" <+: name := by
  obtain ⟨n, rfl⟩ := h
  have split : temporaryName n = bytesOf ".tmp" ++ bytesOf (toString n) := by
    simp [temporaryName, bytesOf, Utf8.encode, toString]
  exact ⟨bytesOf (toString n), split.symm⟩

theorem not_isTemporary_dot : ¬IsTemporary Path.dot := fun h => absurd h.starts (by decide)

theorem not_isTemporary_dotDot : ¬IsTemporary Path.dotDot := fun h => absurd h.starts (by decide)

/-! ## The temporary file of a call -/

/-- A temporary file is where it was made, and holds what has been written to it. -/
structure Intact (file : Path) (fs : FileSystem) (temp : Temporary) (text : Option String) :
    Prop where
  entry : fs.entry? temp.location = some (.file temp.node)
  node : temp.node < fs.nodes.length
  name : ∃ dir name, temp.location = dir ++ [name] ∧ IsTemporary name ∧
    file.names.getLast? ≠ some name
  text : ∀ t, text = some t → fs.contentOf temp.node = bytesOf t

theorem Intact.congr (h : Intact file fs temp text)
    (entry : fs'.entry? temp.location = fs.entry? temp.location)
    (le : fs.nodes.length ≤ fs'.nodes.length) (node : fs'.node? temp.node = fs.node? temp.node) :
    Intact file fs' temp text where
  entry := entry.trans h.entry
  node := Nat.lt_of_lt_of_le h.node le
  name := h.name
  text t same := (contentOf_congr node).trans (h.text t same)

/-- A step of another call leaves a temporary file as it is. -/
theorem Intact.of_effect (h : Intact file fs temp text) (effect : Effect file fs t t' fs')
    (own : ∀ mine text, t.temporary? = some (mine, text) → Intact file fs mine text)
    (apart : ∀ mine text, t.temporary? = some (mine, text) → mine.node ≠ temp.node) :
    Intact file fs' temp text := by
  have elsewhere : ∀ mine text, t.temporary? = some (mine, text) →
      temp.location ≠ mine.location := by
    intro mine text there same
    have entry := (own mine text there).entry
    rw [← same, h.entry] at entry
    exact apart mine text there (Entry.file.inj (Option.some.inj entry)).symm
  cases effect with
  | nothing => exact h
  | made =>
    have grown := @grown_makeParents file fs
    refine h.congr ?_ (Nat.le_of_eq (congrArg _ grown.nodes).symm) ?_
    · rw [grown.entries _ _ h.entry, h.entry]
    · rw [node?, node?, grown.nodes]
  | @created _ _ dir _ _ create =>
    obtain ⟨rfl, rfl⟩ := createTemporary_eq_ok create
    have extends_ := extends_addFile (freshName_spec fs dir file.names.getLast?).1
      ⟨.bytes [], privateMode⟩
    refine h.congr ?_ (by simp) (node?_addFile_of_lt h.node)
    rw [extends_ _ _ h.entry, h.entry]
  | filled a mine =>
    exact h.congr rfl (by simp) (node?_setContent_of_ne _ (apart mine none rfl))
  | @removed _ _ mine _ before =>
    have proper := ne_nil_of_file (own mine _ before).entry
    refine h.congr ?_ (Nat.le_refl _) rfl
    rw [entry?_removeEntry proper, if_neg (elsewhere mine _ before)]
  | @moved a mine _ move =>
    obtain ⟨dir, name, entry, -, names, -, -, -, -, -, rfl⟩ := rename_eq_ok move
    have proper := ne_nil_of_file (own mine _ rfl).entry
    have notThere : temp.location ≠ dir ++ [name] := by
      obtain ⟨dir', name', location, -, reserved⟩ := h.name
      rw [location]
      intro same
      rw [names, List.getLast?_concat] at reserved
      exact reserved (congrArg some (by simpa using (List.append_inj_right' same rfl).symm))
    refine h.congr ?_ (Nat.le_refl _) rfl
    rw [entry?_move (by simp) proper, if_neg notThere, if_neg (elsewhere mine _ rfl)]

/-- What a call knows of its own temporary file is so. -/
theorem intact_own_of_effect (effect : Effect file fs t t' fs')
    (own : ∀ mine text, t.temporary? = some (mine, text) → Intact file fs mine text)
    (there : t'.temporary? = some (temp, text)) : Intact file fs' temp text := by
  cases effect with
  | nothing same => exact own temp text (same.symm.trans there)
  | made _ behind => cases behind.symm.trans there
  | @created _ _ dir _ _ create =>
    obtain ⟨rfl, rfl⟩ := createTemporary_eq_ok create
    cases there
    have reserved := (freshName_spec fs dir file.names.getLast?).2
    refine ⟨?_, by simp, ⟨_, _, rfl, isTemporary_freshName fs dir _, reserved⟩, by simp⟩
    rw [addFile, entry?_setEntry (by simp), if_pos rfl]
  | filled a mine =>
    cases there
    have old := own temp none rfl
    refine ⟨old.entry, by simpa using old.node, old.name, ?_⟩
    rintro t ⟨⟩
    exact contentOf_setContent _ old.node
  | removed _ behind => cases behind.symm.trans there
  | moved => cases there

/-- A call keeps its temporary file, or makes one that no other call has. -/
theorem node_of_effect (effect : Effect file fs t t' fs')
    (there : t'.temporary? = some (temp, text)) :
    (∃ text, t.temporary? = some (temp, text)) ∨ temp.node = fs.nodes.length := by
  cases effect with
  | nothing same => exact .inl ⟨text, same.symm.trans there⟩
  | made _ behind => cases behind.symm.trans there
  | created create =>
    obtain ⟨rfl, -⟩ := createTemporary_eq_ok create
    cases there
    exact .inr rfl
  | filled a mine =>
    cases there
    exact .inl ⟨none, rfl⟩
  | removed _ behind => cases behind.symm.trans there
  | moved => cases there

/-! ## The settings file -/

/-- The path leads to a node with a text. -/
structure Shows (file : Path) (fs : FileSystem) (n : Nat) (text : String) : Prop where
  found : fs.fileNode file = .ok n
  node : n < fs.nodes.length
  text : textOf? (fs.contentOf n) = some text

variable {shown : String}

theorem Shows.readText (h : Shows file fs n shown) : fs.readText file = .ok shown := by
  simp only [FileSystem.readText, FileSystem.read, h.found, Except.map, h.text]

theorem shows_of_readText (sound : fs.Sound) (h : fs.readText file = .ok shown) :
    ∃ n, Shows file fs n shown := by
  cases node : fs.fileNode file with
  | error e => simp [FileSystem.readText, FileSystem.read, node, Except.map] at h
  | ok n =>
    refine ⟨n, node, sound.lt_of_fileNode node, ?_⟩
    simp only [FileSystem.readText, FileSystem.read, node, Except.map] at h
    split at h
    · rename_i text decoded
      rw [decoded, Except.ok.inj h]
    · cases h

theorem fileNode_of_missing (h : fs.readText file = .error .notFound) :
    fs.fileNode file = .error .notFound := by
  unfold FileSystem.readText FileSystem.read at h
  cases node : fs.fileNode file with
  | error e => simpa [node, Except.map] using h
  | ok n =>
    simp only [node, Except.map] at h
    split at h <;> cases h

theorem Shows.congr (h : Shows file fs n shown) (found : fs'.fileNode file = .ok n)
    (le : fs.nodes.length ≤ fs'.nodes.length) (node : fs'.node? n = fs.node? n) :
    Shows file fs' n shown :=
  ⟨found, Nat.lt_of_lt_of_le h.node le, by rw [contentOf_congr node, h.text]⟩

/-- A file that is moved to the path is what the path shows, unless the path led to a directory. -/
theorem shows_of_rename (own : Intact file fs temp (some shown))
    (move : fs.rename temp.location file = .ok moved)
    (noDirectory : fs.fileNode file ≠ .error .tooManyLinks ∧
      fs.fileNode file ≠ .error .isDirectory) :
    Shows file moved temp.node shown := by
  have nodes : moved.nodes = fs.nodes := by
    obtain ⟨dir, name, entry, -, -, -, -, -, -, -, rfl⟩ := rename_eq_ok move
    rfl
  have same : moved.node? temp.node = fs.node? temp.node := by rw [node?, node?, nodes]
  refine ⟨?_, by rw [nodes]; exact own.node, ?_⟩
  · refine (fileNode_of_rename move own.entry).resolve_right fun circular => ?_
    exact circular.2.fileNode.elim noDirectory.1 noDirectory.2
  · rw [contentOf_congr same, own.text shown rfl, textOf?_bytesOf]

/-- What the path shows stays, unless a call moves its document there. -/
theorem Shows.of_effect (h : Shows file fs n shown) (effect : Effect file fs t t' fs')
    (own : ∀ mine text, t.temporary? = some (mine, text) → Intact file fs mine text)
    (apart : ∀ mine text, t.temporary? = some (mine, text) → mine.node ≠ n) :
    Shows file fs' n shown ∨
      ∃ a mine, t = .publishing a mine ∧ t' = .written a ∧
        Shows file fs' mine.node (document a.changed) := by
  cases effect with
  | nothing => exact .inl h
  | made =>
    have grown := @grown_makeParents file fs
    refine .inl (h.congr (grown.entries.fileNode grown.working h.found) ?_ ?_)
    · exact Nat.le_of_eq (congrArg _ grown.nodes).symm
    · rw [node?, node?, grown.nodes]
  | @created _ _ dir _ _ create =>
    obtain ⟨rfl, rfl⟩ := createTemporary_eq_ok create
    have extends_ := extends_addFile (freshName_spec fs dir file.names.getLast?).1
      ⟨.bytes [], privateMode⟩
    exact .inl (h.congr (extends_.fileNode rfl h.found) (by simp) (node?_addFile_of_lt h.node))
  | filled a mine =>
    have same : (fs.setContent mine.node (.bytes (bytesOf (document a.changed)))).Extends fs :=
      fun _ _ there => there
    have found := same.fileNode rfl h.found
    exact .inl (h.congr found (by simp) (node?_setContent_of_ne _ (apart mine none rfl)))
  | @removed _ _ mine _ before =>
    have found := fileNode_removeEntry h.found (own mine _ before).entry (apart mine _ before)
    exact .inl (h.congr found (Nat.le_refl _) rfl)
  | @moved a mine _ move =>
    refine .inr ⟨a, mine, rfl, rfl, shows_of_rename (own mine _ rfl) move ?_⟩
    rw [h.found]
    exact ⟨by simp, by simp⟩

/-! ## A missing settings file -/

/-- The names of temporary files are not in use elsewhere, and the directories that are missing
above the settings file have nothing to do with what is read there. -/
structure Steady (file : Path) (first : FileSystem) : Prop where
  visible : Visible IsTemporary file.names
  links : ∀ at_ target, first.entry? at_ = some (.link target) → Visible IsTemporary target.names
  readText : (makeParents file first).2.readText file = first.readText file

/-- But for temporary files there is what there was at first, with or without the directories above
the settings file. -/
def Untouched (file : Path) (first fs : FileSystem) : Prop :=
  Alike IsTemporary fs first ∨ Alike IsTemporary fs (makeParents file first).2

theorem Steady.clear (steady : Steady file first) : Clear IsTemporary first :=
  ⟨not_isTemporary_dot, steady.links⟩

theorem Untouched.fileNode (h : Untouched file first fs) (steady : Steady file first)
    (missing : first.readText file = .error .notFound) : fs.fileNode file = .error .notFound := by
  rcases h with alike | alike
  · rw [alike.fileNode steady.clear steady.visible]
    exact fileNode_of_missing missing
  · rw [alike.fileNode (steady.clear.of_deepened deepened_makeParents) steady.visible]
    exact fileNode_of_missing (steady.readText.trans missing)

/-- The path stays without a file until a call moves its document there. -/
theorem Untouched.of_effect (h : Untouched file first fs) (steady : Steady file first)
    (missing : first.readText file = .error .notFound) (effect : Effect file fs t t' fs')
    (own : ∀ mine text, t.temporary? = some (mine, text) → Intact file fs mine text) :
    Untouched file first fs' ∨
      ∃ a mine, t = .publishing a mine ∧ t' = .written a ∧
        Shows file fs' mine.node (document a.changed) := by
  have unseen (same : Alike IsTemporary fs' fs) : Untouched file first fs' :=
    h.imp same.trans same.trans
  cases effect with
  | nothing => exact .inl h
  | made =>
    refine .inl (.inr ?_)
    rcases h with alike | alike
    · exact (alike_makeParents alike steady.clear steady.visible).2
    · have again := alike_makeParents alike (steady.clear.of_deepened deepened_makeParents)
        steady.visible
      rw [state_makeParents_again] at again
      exact again.2
  | @created _ _ dir _ _ create =>
    obtain ⟨rfl, rfl⟩ := createTemporary_eq_ok create
    exact .inl (unseen (alike_addFile (isTemporary_freshName fs dir _) _))
  | filled a mine => exact .inl (unseen (alike_setContent _))
  | @removed _ _ mine _ before =>
    obtain ⟨dir, name, location, isTemporary, -⟩ := (own mine _ before).name
    have removed : Alike IsTemporary (fs.removeEntry (dir ++ [name])) fs :=
      alike_removeEntry isTemporary
    rw [← location] at removed
    exact .inl (unseen removed)
  | @moved a mine _ move =>
    refine .inr ⟨a, mine, rfl, rfl, shows_of_rename (own mine _ rfl) move ?_⟩
    rw [h.fileNode steady missing]
    exact ⟨by simp, by simp⟩

end CobolDialects.Settings.File
