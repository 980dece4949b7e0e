import CobolDialects.Proofs.Json.Meaning
import CobolDialects.Proofs.Settings.File
import CobolDialects.Proofs.Text.Decoding

/-!
# Whether a settings file can be read

What a settings file is read for does not matter: either it can be read for every key, or every
call fails in the same way and leaves it as it is, so that no run of calls gets out of such a state.
Which it is depends on the bytes of the file alone.
-/

namespace CobolDialects

/-- The characters with the property `White_Space`, by their code points. -/
def IsWhiteSpace (c : Char) : Prop :=
  9 ≤ c.toNat ∧ c.toNat ≤ 13 ∨ c.toNat = 32 ∨ c.toNat = 133 ∨ c.toNat = 160 ∨ c.toNat = 5760 ∨
    8192 ≤ c.toNat ∧ c.toNat ≤ 8202 ∨ c.toNat = 8232 ∨ c.toNat = 8233 ∨ c.toNat = 8239 ∨
    c.toNat = 8287 ∨ c.toNat = 12288

theorem CharSet.not_contains_nil (c : Char) : ¬contains ⟨[]⟩ c := by
  simp [contains]

/-- The first two changes begin and end a range of characters. -/
theorem CharSet.contains_cons {low high : Nat} {rest : List Nat} {c : Char} (order : low ≤ high)
    (behind : ∀ n ∈ rest, high ≤ n) : contains ⟨low :: high :: rest⟩ c ↔
      low ≤ c.toNat ∧ c.toNat < high ∨ contains ⟨rest⟩ c := by
  have outside (before : c.toNat < high) : ¬contains ⟨rest⟩ c := by
    cases rest with
    | nil => exact not_contains_nil c
    | cons n rest =>
      have first := behind n List.mem_cons_self
      simp [contains, show ¬n ≤ c.toNat by omega]
  by_cases before : c.toNat < low
  · have none : ¬contains ⟨low :: high :: rest⟩ c := by simp [contains, before]
    simp only [none, outside (by omega), show ¬low ≤ c.toNat by omega]
    simp
  · by_cases inside : c.toNat < high
    · have one : contains ⟨low :: high :: rest⟩ c := by
        simp [contains, show low ≤ c.toNat by omega, inside]
      simp only [one, inside, show low ≤ c.toNat by omega]
      simp
    · simp [contains, show low ≤ c.toNat by omega, show high ≤ c.toNat by omega, inside]
      omega

theorem contains_whiteSpace {c : Char} : CharSet.whiteSpace.contains c = true ↔ IsWhiteSpace c := by
  unfold IsWhiteSpace CharSet.whiteSpace
  simp (disch := decide) only [CharSet.contains_cons, CharSet.not_contains_nil,
    Bool.false_eq_true, or_false]
  omega

theorem isBlank_iff {s : List Char} : isBlank s = true ↔ ∀ c ∈ s, IsWhiteSpace c := by
  simp [isBlank, contains_whiteSpace]

namespace Settings.File

open FileSystem

variable {file : Path} {fs : FileSystem} {settings : Members} {e : String → Error} {fault : Fault}

/-- The members of an object, in the order in which their names first occur, each with the value of
its name's last occurrence. -/
theorem find?_settingsOf (ms : Members) (key : String) :
    (settingsOf ms).find? key = (ms.last? key).map Json.canonical := by
  rw [settingsOf, Members.find?_ordered, Json.canonicalMembers_eq_map, Members.last?_map]

/-- The file can be read, whatever it is read for: a get finds the settings, and a set goes on to
save them with its value. -/
structure Readable (file : Path) (fs : FileSystem) (settings : Members) : Prop where
  get : ∀ key, (get file key fs).result = .ok (settings.find? key) ∧ (get file key fs).state = fs
  set : ∀ refusals key value,
    let saved := save refusals file (settings.upsert key value) fs
    (set refusals file key value fs).result = saved.1.mapError .io ∧
      (set refusals file key value fs).state = saved.2

/-- The file cannot be read, whatever it is read for: every call fails, as does every operation of a
run of them, with the error for its key, and the file system stays as it is. -/
structure Unreadable (file : Path) (fs : FileSystem) (e : String → Error) : Prop where
  calls : ∀ refusals, (store refusals file).Fails fs e
  runs : ∀ (refusals : Nat → Refusals) (operations : List Operation),
    Action.inTurn (fun n => store (refusals n) file) (operations.map Operation.action) fs =
      (operations.map fun o => .error (e o.key), fs)

theorem readable_of_load (h : ∀ key, load file key fs = .ok settings) :
    Readable file fs settings where
  get key := by simp [File.get, h key, Except.map]
  set refusals key value := by
    simp only [File.set, h key]
    rcases save refusals file (settings.upsert key value) fs with ⟨_ | _, left⟩
    · exact ⟨rfl, rfl⟩
    · exact ⟨rfl, rfl⟩

theorem unreadable_of_load (h : ∀ key, load file key fs = .error (e key)) :
    Unreadable file fs e where
  calls := fails_of_load h
  runs refusals operations := Store.Fails.inTurn (fun n => fails_of_load h (refusals n)) operations

/-! ## What is read from the bytes -/

/-- One file, `s`, with a text. -/
def holding (text : String) : FileSystem :=
  ⟨[([bytesOf "s"], .file 0)], [⟨.bytes (bytesOf text), 0⟩], []⟩

theorem readText_holding (text : String) : (holding text).readText (bytesOf "s") = .ok text := by
  have node : (holding text).fileNode (bytesOf "s") = .ok 0 := by with_unfolding_all rfl
  have content : (holding text).contentOf 0 = bytesOf text := rfl
  simp only [FileSystem.readText, FileSystem.read, node, Except.map, content, textOf?_bytesOf]

/-- A path that leads to nothing, be it through links, is the path of a missing file. -/
theorem read_of_vacant {dir : Location} {name : Name}
    (h : fs.lookup true file = .ok (.vacant dir name)) : fs.read file = .error .notFound := by
  simp [FileSystem.read, fileNode, FileSystem.find, h, Except.map]

theorem readText_of_read {bytes : Bytes} {text : String} (read : fs.read file = .ok bytes)
    (decoded : bytesOf text = bytes) : fs.readText file = .ok text := by
  simp [readText, read, textOf?_eq_some.mpr decoded]

theorem readText_of_not_text {bytes : Bytes} (read : fs.read file = .ok bytes)
    (none : ∀ text, bytesOf text ≠ bytes) : fs.readText file = .error .notText := by
  simp [readText, read, textOf?_eq_none.mpr none]

theorem load_of_fault (h : fs.readText file = .error fault) (other : fault ≠ .notFound)
    (key : String) : load file key fs = .error (.io fault) := by
  cases fault <;> simp_all [load]

/-- What the text of a file comes to. A text with nothing but white space has no settings; another
one is read as a document, and its root is to be an object. -/
def Told (file : Path) (fs : FileSystem) (text : String) : Prop :=
  (∀ c ∈ text.toList, IsWhiteSpace c) ∧ Readable file fs [] ∨
    (∃ c ∈ text.toList, ¬IsWhiteSpace c) ∧
      match Json.readDocument text.toList with
      | .error error => Unreadable file fs fun _ => .json error
      | .ok v => v.depth ≤ 127 ∧
        match v with
        | .obj ms => Readable file fs (settingsOf ms)
        | v => Unreadable file fs fun key => .invalidShape key (.notObject file v.kind)

theorem told_of_readText {text : String} (h : fs.readText file = .ok text) : Told file fs text := by
  have loads (key : String) := load_of_readText h key
  by_cases blank : ∀ c ∈ text.toList, IsWhiteSpace c
  · refine .inl ⟨blank, readable_of_load fun key => ?_⟩
    rw [loads, parse, if_pos (isBlank_iff.mpr blank)]
  · refine .inr ⟨by simpa using blank, ?_⟩
    have shown (key : String) := loads key
    simp only [parse, if_neg fun all => blank (isBlank_iff.mp all)] at shown
    cases read : Json.readDocument text.toList with
    | error error => exact unreadable_of_load fun key => by rw [shown, read]
    | ok v =>
      refine ⟨Json.depth_le_of_document (Json.readDocument_eq_ok.mp read), ?_⟩
      cases v with
      | obj ms => exact readable_of_load fun key => by rw [shown, read]
      | _ => exact unreadable_of_load fun key => by rw [shown, read]

/-- What reading the settings comes to. A missing file has none, and so has a path that leads to
nothing through links; any other fault of the system is handed on, and so is that the bytes are
those of no text. -/
def Classified (file : Path) (fs : FileSystem) : Prop :=
  (∀ dir name, fs.lookup true file = .ok (.vacant dir name) → fs.read file = .error .notFound) ∧
  match fs.read file with
  | .error .notFound => Readable file fs []
  | .error fault => Unreadable file fs fun _ => .io fault
  | .ok bytes =>
    (∀ text, bytesOf text ≠ bytes) ∧ Unreadable file fs (fun _ => .io .notText) ∨
      ∃ text, bytesOf text = bytes ∧ Told file fs text

theorem classified (file : Path) (fs : FileSystem) : Classified file fs := by
  refine ⟨fun dir name => read_of_vacant, ?_⟩
  split
  · rename_i missing
    refine readable_of_load fun key => ?_
    simp [load, readText, missing]
  · rename_i fault other failed
    refine unreadable_of_load fun key => load_of_fault ?_ other key
    simp [readText, failed]
  · rename_i bytes read
    by_cases none : ∀ text, bytesOf text ≠ bytes
    · exact .inl ⟨none, unreadable_of_load fun key =>
        load_of_fault (readText_of_not_text read none) (by decide) key⟩
    · obtain ⟨text, decoded⟩ := not_forall_not.mp none
      exact .inr ⟨text, decoded, told_of_readText (readText_of_read read decoded)⟩

/-- The errors for all keys are one error, but that it may name the key where it tells the wrong
shape of what was read for it. -/
def SameButKey (e : String → Error) : Prop :=
  (∃ error, ∀ key, e key = error) ∨ ∃ fault, ∀ key, e key = .invalidShape key fault

/-- A settings file can be read for every key, and then every set goes on to write, or it can be
read for none, and then every call fails in the same way, every operation of every run of them does,
and the file system stays as it is. Which it is and what is read is a matter of the file alone. -/
theorem reading_settings (file : Path) (fs : FileSystem) :
    ((∃ settings, Readable file fs settings) ∨ ∃ e, SameButKey e ∧ Unreadable file fs e) ∧
      Classified file fs := by
  refine ⟨?_, classified file fs⟩
  obtain ⟨-, reads⟩ := classified file fs
  split at reads
  · exact .inl ⟨_, reads⟩
  · exact .inr ⟨_, .inl ⟨_, fun _ => rfl⟩, reads⟩
  · rcases reads with ⟨-, never⟩ | ⟨text, -, ⟨-, blank⟩ | ⟨-, told⟩⟩
    · exact .inr ⟨_, .inl ⟨_, fun _ => rfl⟩, never⟩
    · exact .inl ⟨_, blank⟩
    · split at told
      · exact .inr ⟨_, .inl ⟨_, fun _ => rfl⟩, told⟩
      · obtain ⟨-, told⟩ := told
        split at told
        · exact .inl ⟨_, told⟩
        · exact .inr ⟨_, .inr ⟨_, fun _ => rfl⟩, told⟩

end Settings.File

end CobolDialects
