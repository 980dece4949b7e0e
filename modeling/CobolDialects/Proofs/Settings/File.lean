import CobolDialects.Proofs.Json.RoundTrip
import CobolDialects.Proofs.Settings.Operation
import CobolDialects.Proofs.Settings.Save

/-!
# Settings in a file

The document that is written is read back as the settings that it was written for, as long as the
reader goes as deep. One that is deeper can be written, but from then on the file cannot be read.
-/

namespace CobolDialects.Settings.File

variable {refusals : Refusals} {file : Path} {fs saved : FileSystem} {settings : Members}
  {key : String} {value : Json}

/-! ## Settings as they are loaded -/

/-- Settings as reading a file gives them. -/
structure Loaded (settings : Members) : Prop where
  nodup : settings.names.Nodup
  canonical : ∀ m ∈ settings, m.2.IsCanonical
  depth_lt : ∀ m ∈ settings, m.2.depth < Json.maxDepth

theorem loaded_settingsOf {ms : Members} (levels : (Json.obj ms).depth ≤ Json.maxDepth) :
    Loaded (settingsOf ms) where
  nodup := Members.nodup_ordered _
  canonical m there := Json.forall_mem_canonicalMembers Json.IsCanonical
    (fun m _ => m.2.isCanonical_canonical) m (Members.mem_ordered there)
  depth_lt m there := by
    have shallow : ∀ m ∈ ms, m.2.canonical.depth < Json.maxDepth := by
      intro m inside
      have member := Json.depthMembers_le.mp (Nat.le_refl (Json.depthMembers ms)) m inside
      have canonical := m.2.depth_canonical_le
      rw [Json.depth] at levels
      omega
    exact Json.forall_mem_canonicalMembers (·.depth < Json.maxDepth) shallow m
      (Members.mem_ordered there)

theorem loaded_of_parse {text : String} (h : parse file key text = .ok settings) :
    Loaded settings := by
  unfold parse at h
  split_ifs at h
  · obtain rfl := Except.ok.inj h
    exact ⟨List.nodup_nil, by simp, by simp⟩
  · cases document : Json.readDocument text.toList with
    | error e => simp [document] at h
    | ok v =>
      have levels := Json.depth_le_of_document (Json.readDocument_eq_ok.mp document)
      cases v with
      | obj ms =>
        simp only [document, Except.ok.injEq] at h
        exact h ▸ loaded_settingsOf levels
      | null | bool | num | str | arr => simp [document] at h

theorem loaded_of_load (h : load file key fs = .ok settings) : Loaded settings := by
  unfold load at h
  split at h
  · exact loaded_of_parse h
  · obtain rfl := Except.ok.inj h
    exact ⟨List.nodup_nil, by simp, by simp⟩
  · cases h

theorem Loaded.upsert (h : Loaded settings) (key : String) (canonical : value.IsCanonical)
    (levels : value.depth < Json.maxDepth) : Loaded (settings.upsert key value) where
  nodup := Members.nodup_upsert h.nodup
  canonical m there := by
    rcases Members.mem_upsert there with rfl | there
    · exact canonical
    · exact h.canonical m there
  depth_lt m there := by
    rcases Members.mem_upsert there with rfl | there
    · exact levels
    · exact h.depth_lt m there

theorem floatFree_upsert (key : String) (h : ∀ m ∈ settings, m.2.floatFree)
    (free : value.floatFree) : ∀ m ∈ settings.upsert key value, m.2.floatFree := by
  intro m there
  rcases Members.mem_upsert there with rfl | there
  · exact free
  · exact h m there

/-- A file from which settings are loaded is missing or holds text. -/
theorem legible_of_load (h : load file key fs = .ok settings) :
    fs.readText file = .error .notFound ∨ ∃ text, fs.readText file = .ok text := by
  unfold load at h
  split at h
  · rename_i text read
    exact .inr ⟨text, read⟩
  · rename_i missing
    exact .inl missing
  · cases h

/-- For which key a file is read matters for its failures only. -/
theorem load_key (other : String) (h : load file key fs = .ok settings) :
    load file other fs = .ok settings := by
  unfold load at h ⊢
  split at h
  · unfold parse at h ⊢
    split_ifs at h ⊢
    · exact h
    · split at h <;> simp_all
  · exact h
  · cases h

/-! ## Documents as they are written -/

theorem not_isBlank_document (settings : Members) :
    isBlank (document settings).toList = false := by
  cases settings with
  | nil => decide
  | cons m settings =>
    have brace : CharSet.whiteSpace.contains '{' = false := by decide
    simp [document, Json.toLines, Json.pretty, isBlank, brace]

theorem settingsOf_loaded (h : Loaded settings) : settingsOf settings = settings := by
  rw [settingsOf, Json.canonicalMembers_of_canonical h.canonical]
  exact Members.ordered_of_nodup h.nodup

theorem Loaded.depth_le (h : Loaded settings) : (Json.obj settings).depth ≤ Json.maxDepth := by
  have members : Json.depthMembers settings ≤ 126 :=
    Json.depthMembers_le.mpr fun m there => Nat.le_of_lt_succ (h.depth_lt m there)
  rw [Json.depth, Json.maxDepth]
  omega

theorem readDocument_document (free : ∀ m ∈ settings, m.2.floatFree)
    (levels : (Json.obj settings).depth ≤ Json.maxDepth) :
    Json.readDocument (document settings).toList = .ok (.obj settings) := by
  have allFree : (Json.obj settings).floatFree := Json.floatFreeMembers_iff.mpr free
  exact (Json.readDocument_toLines allFree).mpr ⟨levels, rfl⟩

theorem parse_document (free : ∀ m ∈ settings, m.2.floatFree)
    (levels : (Json.obj settings).depth ≤ Json.maxDepth) :
    parse file key (document settings) = .ok (settingsOf settings) := by
  have read := readDocument_document free levels
  simp only [parse, not_isBlank_document, Bool.false_eq_true, if_false, read]

theorem load_of_readText {text : String} (h : fs.readText file = .ok text) (key : String) :
    load file key fs = parse file key text := by
  rw [load, h]

theorem load_of_document (free : ∀ m ∈ settings, m.2.floatFree) (loaded : Loaded settings)
    (h : fs.readText file = .ok (document settings)) (key : String) :
    load file key fs = .ok settings := by
  rw [load_of_readText h, parse_document free loaded.depth_le, settingsOf_loaded loaded]

/-- A document that is deeper than the reader goes is not read for any key. -/
theorem parse_document_deep (file : Path) (free : ∀ m ∈ settings, m.2.floatFree)
    {m : String × Json} (there : m ∈ settings) (deep : Json.maxDepth ≤ m.2.depth) :
    ∃ e, ∀ key, parse file key (document settings) = .error (.json e) := by
  cases read : Json.readDocument (document settings).toList with
  | error e =>
    refine ⟨e, fun key => ?_⟩
    simp only [parse, not_isBlank_document, Bool.false_eq_true, if_false, read]
  | ok v =>
    have allFree : (Json.obj settings).floatFree := Json.floatFreeMembers_iff.mpr free
    have levels := ((Json.readDocument_toLines allFree).mp read).1
    have member := Json.depthMembers_le.mp (Nat.le_refl (Json.depthMembers settings)) m there
    rw [Json.depth] at levels
    omega

/-! ## The store -/

theorem save_of_set (h : (set refusals file key value fs).result = .ok ()) :
    ∃ settings, load file key fs = .ok settings ∧
      save refusals file (settings.upsert key value) fs =
        (.ok (), (set refusals file key value fs).state) := by
  unfold set at h ⊢
  cases read : load file key fs with
  | error e =>
    rw [read] at h
    cases h
  | ok settings =>
    simp only [read] at h
    refine ⟨settings, rfl, ?_⟩
    cases saving : save refusals file (settings.upsert key value) fs with
    | mk result saved =>
      cases result with
      | ok => simp only [saving]
      | error fault =>
        rw [saving] at h
        cases h

theorem set_of_save (read : load file key fs = .ok settings)
    (h : (save refusals file (settings.upsert key value) fs).1 = .ok ()) :
    (set refusals file key value fs).result = .ok () := by
  simp only [set, read]
  cases saving : save refusals file (settings.upsert key value) fs with
  | mk result saved =>
    rw [saving] at h
    cases h
    rfl

/-- A file that cannot be read is of no use to any call. -/
theorem fails_of_load {e : String → Error} (h : ∀ key, load file key fs = .error (e key))
    (refusals : Refusals) : (store refusals file).Fails fs e where
  get key := by simp [store, get, h key, Except.map]
  set key value := by simp [store, set, h key]

/-- Reading the file gives the settings, or it fails with a fault of the file system. -/
def Reads (file : Path) (fs : FileSystem) (settings : Members) : Prop :=
  (∀ key, load file key fs = .ok settings) ∨ ∃ fault, ∀ key, load file key fs = .error (.io fault)

theorem Reads.get_gives (h : Reads file fs settings) (key : String) {holds : FileSystem → Prop}
    (kept : holds fs) :
    ((store refusals file).get key fs).Gives (·.className = "Io")
      (.ok (settings.find? key)) holds := by
  rcases h with held | ⟨fault, failed⟩
  · refine .inl ⟨?_, kept⟩
    simp only [store, get, held key, Except.map]
  · refine .inr ⟨.io fault, rfl, ?_⟩
    simp only [store, get, failed key, Except.map]

theorem Reads.set_gives (h : Reads file fs settings) (old : Loaded settings)
    (free : ∀ m ∈ settings.upsert key value, m.2.floatFree) (storable : Storable value) :
    ((store refusals file).set key value fs).Gives (·.className = "Io") (.ok ())
      (Reads file · (settings.upsert key value)) := by
  cases result : (File.set refusals file key value fs).result with
  | ok =>
    refine .inl ⟨result, ?_⟩
    obtain ⟨settings', read, saved⟩ := save_of_set result
    rcases h with held | ⟨fault, failed⟩
    swap
    · cases read.symm.trans (failed key)
    obtain rfl := Except.ok.inj (read.symm.trans (held key))
    rcases readText_of_save saved with text | ⟨lost, -⟩
    · exact .inl (load_of_document free (old.upsert key storable.canonical storable.depth_lt) text)
    · exact .inr ⟨.notDirectory, fun key => by simp only [store, load, lost]⟩
  | error e =>
    refine .inr ⟨e, ?_, result⟩
    rcases h with held | ⟨fault, failed⟩
    · simp only [File.set, held key] at result
      split at result
      · cases result
      · obtain rfl := Except.error.inj result
        rfl
    · simp only [File.set, failed key] at result
      obtain rfl := Except.error.inj result
      rfl

/-- The file holds a table, or it cannot be read for a fault of the file system. -/
structure Holds (file : Path) (fs : FileSystem) (table : Members) : Prop where
  loaded : Loaded table
  floatFree : ∀ m ∈ table, m.2.floatFree
  reads : Reads file fs table

/-- A settings file keeps a table, unless there is a fault of the file system. -/
theorem keeps (refusals : Refusals) (file : Path) :
    Keeps (store refusals file) (Holds file) (·.className = "Io") where
  get key h := h.reads.get_gives key h
  set := by
    intro fs table value key h storable
    have free := floatFree_upsert key h.floatFree storable.floatFree
    exact (h.reads.set_gives h.loaded free storable).mono fun after reads =>
      ⟨h.loaded.upsert key storable.canonical storable.depth_lt, free, reads⟩

/-- The file has a value under a key, and no floating-point numbers under other keys; or it cannot
be read for a fault of the file system. -/
def HoldsUnder (file : Path) (key : String) (fs : FileSystem) (value? : Option Json) : Prop :=
  ∃ settings, Loaded settings ∧ (∀ m ∈ settings, m.1 ≠ key → m.2.floatFree) ∧
    settings.find? key = value? ∧ Reads file fs settings

/-- What a settings file has under one key it keeps whatever that is. -/
theorem keepsUnder (refusals : Refusals) (file : Path) (key : String) :
    KeepsUnder key (store refusals file) (HoldsUnder file key) (·.className = "Io") where
  get := by
    rintro fs value? ⟨settings, loaded, free, rfl, reads⟩
    exact reads.get_gives key ⟨settings, loaded, free, rfl, reads⟩
  set := by
    rintro fs value? value ⟨settings, loaded, free, -, reads⟩ storable
    have allFree : ∀ m ∈ settings.upsert key value, m.2.floatFree := by
      intro m there
      rcases Members.mem_upsert_of_nodup loaded.nodup there with rfl | ⟨there, ne⟩
      · exact storable.floatFree
      · exact free m there ne
    exact (reads.set_gives loaded allFree storable).mono fun after reads =>
      ⟨_, loaded.upsert key storable.canonical storable.depth_lt, fun m there _ => allFree m there,
        by simp [Members.find?_upsert], reads⟩

/-- Where no key has a value there are no settings. -/
theorem holds_nil (unset : ∀ key, (get file key fs).result = .ok none) : Holds file fs [] := by
  have loads (key : String) :
      ∃ settings, load file key fs = .ok settings ∧ settings.find? key = none := by
    have answer := unset key
    unfold get at answer
    cases read : load file key fs with
    | error e => simp [read, Except.map] at answer
    | ok settings => exact ⟨settings, rfl, by simpa [read, Except.map] using answer⟩
  obtain ⟨settings, read, -⟩ := loads ""
  have same (key : String) : load file key fs = .ok settings := load_key key read
  have none : settings = [] := by
    refine Members.eq_nil_of_find? fun key => ?_
    obtain ⟨settings', read', missing⟩ := loads key
    obtain rfl := Except.ok.inj ((same key).symm.trans read')
    exact missing
  subst none
  exact ⟨loaded_of_load read, by simp, .inl same⟩

end CobolDialects.Settings.File
