import CobolDialects.Proofs.Settings.Replacing

/-!
# What a set makes of a settings file

A set rewrites the whole document. As long as its reader goes as deep as the new value, everything
but that value is what it was, down to the order. The writer goes deeper than the reader: beyond the
reader's depth a set succeeds, and is the last call that does.
-/

namespace CobolDialects.Settings

/-- Settings with a value under a key, where the key was before or else behind all others. -/
structure Replaced (key : String) (value : Json) (old new : Members) : Prop where
  nodup : new.names.Nodup
  place : (∃ front previous rest, old = front ++ (key, previous) :: rest ∧
      new = front ++ (key, value) :: rest) ∨
    key ∉ old.names ∧ new = old ++ [(key, value)]

theorem replaced_upsert {old : Members} (h : old.names.Nodup) (key : String) (value : Json) :
    Replaced key value old (old.upsert key value) where
  nodup := Members.nodup_upsert h
  place := by
    by_cases known : key ∈ old.names
    · obtain ⟨⟨name, previous⟩, there, same⟩ := List.mem_map.mp known
      obtain rfl : key = name := same.symm
      obtain ⟨front, rest, rfl⟩ := List.append_of_mem there
      have new : key ∉ Members.names front := by
        rw [Members.names_append, Members.names_cons] at h
        intro twice
        exact List.disjoint_of_nodup_append h twice List.mem_cons_self
      exact .inl ⟨front, previous, rest, rfl, Members.upsert_of_split new⟩
    · exact .inr ⟨known, Members.upsert_of_not_mem known⟩

namespace File

variable {refusals : Refusals} {file : Path} {fs after : FileSystem} {settings : Members}
  {key : String} {value : Json}

/-- A file that held settings holds them with a value replaced, in a document that names each key
once. -/
structure Rewritten (file : Path) (key : String) (value : Json) (fs : FileSystem)
    (settings changed : Members) (after : FileSystem) : Prop where
  replaced : Replaced key value settings changed
  document : ∃ text, after.readText file = .ok text ∧
    Json.readDocument text.toList = .ok (.obj changed)
  load : ∀ other, load file other after = .ok changed
  get_key : (get file key after).result = .ok (some value)
  get_other : ∀ other, other ≠ key → (get file other after).result = (get file other fs).result

/-- Nothing that is asked of the settings file succeeds from now on, whatever the system does. -/
def Unusable (file : Path) (after : FileSystem) : Prop :=
  ∃ e, ∀ (refusals : Nat → Refusals) (operations : List Operation),
    Action.inTurn (fun n => store (refusals n) file) (operations.map Operation.action) after =
      (List.replicate operations.length (.error (.json e)), after)

/-- What a set makes of a file. Of a value that is not too deep it makes a document that differs
from the old settings in that value only; a value that is too deep makes the file unusable. -/
structure Written (file : Path) (key : String) (value : Json) (fs : FileSystem)
    (settings : Members) (after : FileSystem) : Prop where
  rewritten : value.depth < Json.maxDepth →
    ∃ changed, Rewritten file key value fs settings changed after
  unusable : Json.maxDepth ≤ value.depth → Unusable file after

theorem set_result (refusals : Refusals) (file : Path) (key : String) (value other : Json)
    (fs : FileSystem) :
    (set refusals file key value fs).result = (set refusals file key other fs).result := by
  unfold set
  cases load file key fs with
  | error e => rfl
  | ok settings =>
    have same := save_result refusals file (settings.upsert key value)
      (settings.upsert key other) fs
    cases one : save refusals file (settings.upsert key value) fs with
    | mk result saved =>
      cases two : save refusals file (settings.upsert key other) fs with
      | mk result' saved' =>
        rw [one, two] at same
        obtain rfl : result = result' := same
        cases result <;> simp only [one, two]

theorem rewritten_of_readText (old : Loaded settings) (read : load file key fs = .ok settings)
    (free : ∀ m ∈ settings, m.2.floatFree) (storable : Storable value)
    (text : after.readText file = .ok (document (settings.upsert key value))) :
    Rewritten file key value fs settings (settings.upsert key value) after := by
  have new := old.upsert key storable.canonical storable.depth_lt
  have newFree := floatFree_upsert key free storable.floatFree
  have loads := load_of_document newFree new text
  refine ⟨replaced_upsert old.nodup key value, ?_, loads, ?_, ?_⟩
  · exact ⟨_, text, readDocument_document newFree new.depth_le⟩
  · simp [get, loads, Except.map, Members.find?_upsert]
  · intro other ne
    simp [get, loads, load_key other read, Except.map, Members.find?_upsert, ne]

theorem unusable_of_readText (free : ∀ m ∈ settings, m.2.floatFree) (valueFree : value.floatFree)
    (deep : Json.maxDepth ≤ value.depth)
    (text : after.readText file = .ok (document (settings.upsert key value))) :
    Unusable file after := by
  have there : (key, value) ∈ settings.upsert key value :=
    Members.mem_of_find? (by simp [Members.find?_upsert])
  obtain ⟨e, failed⟩ := parse_document_deep file (floatFree_upsert key free valueFree) there deep
  have fails := fails_of_load fun key => (load_of_readText text key).trans (failed key)
  refine ⟨e, fun refusals operations => ?_⟩
  rw [Store.Fails.inTurn (fun n => fails (refusals n)), List.map_const']

theorem written_of_readText (read : load file key fs = .ok settings)
    (free : ∀ m ∈ settings, m.2.floatFree) (canonical : value.IsCanonical)
    (valueFree : value.floatFree)
    (text : after.readText file = .ok (document (settings.upsert key value))) :
    Written file key value fs settings after where
  rewritten shallow := ⟨settings.upsert key value, rewritten_of_readText (loaded_of_load read) read
    free ⟨canonical, valueFree, shallow⟩ text⟩
  unusable deep := unusable_of_readText free valueFree deep text

/-- The directory above a file that can be read is there. -/
theorem housed_of_readText {text : String} (h : fs.readText file = .ok text) : Housed file fs := by
  cases node : fs.fileNode file with
  | error e => simp [FileSystem.readText, FileSystem.read, node, Except.map] at h
  | ok n =>
    obtain ⟨at_, check, walk⟩ := FileSystem.fileNode_eq_ok.mp node
    exact housed_of_lookup (lookup_of_find (FileSystem.find_eq_ok.mpr ⟨check, walk⟩))

/-- A set that succeeds would do so for every value. Of a file that is there it makes what was to be
written, whatever the value. So it does where there was no file, unless the path misses directories
and, with them made, leads through its own last name as a dangling link: the set puts a file in
place of the link, and the path leads nowhere. -/
theorem set_rewrites (read : load file key fs = .ok settings)
    (free : ∀ m ∈ settings, m.2.floatFree) (canonical : value.IsCanonical)
    (valueFree : value.floatFree)
    (done : (set refusals file key value fs).result = .ok ())
    (state : (set refusals file key value fs).state = after) :
    (∀ other, (set refusals file key other fs).result = .ok ()) ∧
      (∀ text, fs.readText file = .ok text → Written file key value fs settings after) ∧
      (fs.readText file = .error .notFound → Written file key value fs settings after ∨
        after.readText file = .error .notDirectory ∧ ¬Housed file fs ∧
          FileSystem.Circular (makeParents file fs).2 file) := by
  obtain ⟨loaded, read', saved⟩ := save_of_set done
  obtain rfl : settings = loaded := Except.ok.inj (read.symm.trans read')
  rw [state] at saved
  have either : Written file key value fs settings after ∨
      after.readText file = .error .notDirectory ∧ ¬Housed file fs ∧
        FileSystem.Circular (makeParents file fs).2 file :=
    (readText_of_save saved).imp (written_of_readText read free canonical valueFree)
      fun ⟨lost, circular⟩ => ⟨lost, not_housed_of_circular circular read, circular⟩
  refine ⟨fun other => (set_result refusals file key other value fs).trans done,
    fun text there => either.resolve_right ?_, fun _ => either⟩
  exact fun ⟨_, notHoused, _⟩ => notHoused (housed_of_readText there)

/-- In a file that repeats a key, the new value stands where the key first was. -/
theorem set_rewrites_repeated_key :
    let ms : Members := [("b", .str "1"), ("a", .null), ("b", .str "2")]
    let fs : FileSystem := ⟨[([bytesOf "s"], .file 0)], [⟨.bytes (bytesOf (document ms)), 0⟩], []⟩
    let settings : Members := [("b", .str "2"), ("a", .null)]
    let after := (set .none (bytesOf "s") "b" (.arr []) fs).state
    ∃ changed, Rewritten (bytesOf "s") "b" (.arr []) fs settings changed after := by
  intro ms fs settings after
  have text : fs.readText (bytesOf "s") = .ok (document ms) := by
    have node : fs.fileNode (bytesOf "s") = .ok 0 := by with_unfolding_all rfl
    have content : fs.contentOf 0 = bytesOf (document ms) := rfl
    simp only [FileSystem.readText, FileSystem.read, node, Except.map, content, textOf?_bytesOf]
  have read : load (bytesOf "s") "b" fs = .ok settings := by
    rw [load_of_readText text, parse_document (by decide) (by decide)]
    rfl
  have saved : (save .none (bytesOf "s") (settings.upsert "b" (.arr [])) fs).1 = .ok () := by
    with_unfolding_all rfl
  obtain ⟨-, there, -⟩ := set_rewrites read (by decide) (Json.isCanonical_arr (by simp)) rfl
    (set_of_save read saved) rfl
  exact (there _ text).rewritten (by decide)

end File

end CobolDialects.Settings
