import CobolDialects.Proofs.Settings.Reading

/-!
# Two readers of a settings file

The settings keep their order, as a plain value does not. Still the settings are read from just the
texts that have an object for a plain value, and they are what that object holds.
-/

namespace CobolDialects.Settings.File

open FileSystem

variable {file : Path} {fs : FileSystem} {text : String}

/-- The keys stand where they first occur. -/
theorem names_settingsOf (ms : Members) : (settingsOf ms).names = ms.names.eraseDups := by
  have names : (Json.canonicalMembers ms).names = ms.names := by
    rw [Json.canonicalMembers_eq_map, Members.names, Members.names, List.map_map]
    rfl
  rw [settingsOf, Members.names_ordered, names]

/-- A settings file is read as the plain value of its text tells. -/
structure ReadAsPlain (file : Path) (fs : FileSystem) (text : String) : Prop where
  rejects : ∀ key e, load file key fs = .error (.json e) ↔ Json.read text = .error e
  misshapen : ∀ key other fault, load file key fs = .error (.invalidShape other fault) ↔
    other = key ∧ ∃ v, Json.read text = .ok v ∧ v.kind ≠ .object ∧ fault = .notObject file v.kind
  finds : ∀ key found, (get file key fs).result = .ok found ↔
    ∃ members : Members, Json.read text = .ok (.obj members) ∧ found = members.find? key

/-- The settings in a file have the names of an object once each, where they first occur, and each
name has what the last member of that name stands for. -/
structure ReadInOrder (file : Path) (fs : FileSystem) (ms settings : Members) : Prop where
  load : ∀ key, load file key fs = .ok settings
  names : settings.names = ms.names.eraseDups
  values : ∀ key, Option.Rel Json.StandsFor (ms.last? key) (settings.find? key)

theorem load_of_shown (h : fs.readText file = .ok text)
    (shown : ∃ c ∈ text.toList, ¬IsWhiteSpace c) (key : String) : load file key fs =
      match Json.readDocument text.toList with
      | .error e => .error (.json e)
      | .ok (.obj ms) => .ok (settingsOf ms)
      | .ok v => .error (.invalidShape key (.notObject file v.kind)) := by
  have notBlank : ¬isBlank text.toList := by
    rw [isBlank_iff]
    push Not
    exact shown
  exact (load_of_readText h key).trans (if_neg notBlank)

theorem readInOrder_settingsOf {ms : Members}
    (loads : ∀ key, load file key fs = .ok (settingsOf ms)) :
    ReadInOrder file fs ms (settingsOf ms) where
  load := loads
  names := names_settingsOf ms
  values key := by
    rw [find?_settingsOf]
    cases ms.last? key with
    | none => exact .none
    | some value => exact .some value.standsFor_canonical

/-- In a text that is read at all, a root that is no object is told by its type. -/
theorem readAsPlain_of_no_object {v : Json} (plain : Json.read text = .ok v)
    (kind : v.kind ≠ .object)
    (loads : ∀ key, load file key fs = .error (.invalidShape key (.notObject file v.kind))) :
    ReadAsPlain file fs text where
  rejects key e := by simp [loads, plain]
  misshapen key other fault := by
    rw [loads, plain]
    constructor
    · intro same
      obtain ⟨rfl, rfl⟩ := Error.invalidShape.inj (Except.error.inj same)
      exact ⟨rfl, v, rfl, kind, rfl⟩
    · rintro ⟨rfl, w, same, -, rfl⟩
      obtain rfl := Except.ok.inj same
      rfl
  finds key found := by
    have none (members : Members) : v ≠ .obj members := by
      rintro rfl
      exact kind rfl
    simp [get, loads, plain, Except.map, none]

theorem readAsPlain_of_object {ms members : Members} (plain : Json.read text = .ok (.obj members))
    (loads : ∀ key, load file key fs = .ok (settingsOf ms))
    (same : ∀ key, (settingsOf ms).find? key = members.find? key) : ReadAsPlain file fs text where
  rejects key e := by simp [loads, plain]
  misshapen key other fault := by
    rw [loads, plain]
    constructor
    · intro h
      cases h
    · rintro ⟨-, v, read, kind, -⟩
      obtain rfl := Except.ok.inj read
      exact absurd rfl kind
  finds key found := by
    rw [get, loads, plain, Except.map, same]
    constructor
    · intro h
      exact ⟨members, rfl, (Except.ok.inj h).symm⟩
    · rintro ⟨others, read, rfl⟩
      obtain rfl := Json.obj.inj (Except.ok.inj read)
      rfl

theorem readAsPlain (h : fs.readText file = .ok text) (shown : ∃ c ∈ text.toList, ¬IsWhiteSpace c) :
    ReadAsPlain file fs text := by
  have loads := load_of_shown h shown
  cases read : Json.readDocument text.toList with
  | error e =>
    have plain : Json.read text = .error e := by
      rw [Json.read, read]
      rfl
    simp only [read] at loads
    constructor <;> intros <;> simp [get, loads, plain, Except.map]
  | ok v =>
    have plain := Json.read_of_readDocument read
    simp only [read] at loads
    cases v with
    | obj ms =>
      refine readAsPlain_of_object plain loads fun key => ?_
      rw [find?_settingsOf, Json.find?_canonical]
    | null | bool | num | str | arr =>
      refine readAsPlain_of_no_object plain ?_ loads
      intro object
      cases object

/-- A text with more than white space is read for settings as it is read for its plain value: it is
refused for the same reason, it is refused for the type of the value if that is no object, and else
every key has what the object holds, and nothing where the object holds nothing. The value is the
one that the written document stands for, where of repeated names the last one counts at every
depth; the settings have the keys of the document in the order in which they first occur. -/
theorem readers_agree (h : fs.readText file = .ok text)
    (shown : ∃ c ∈ text.toList, ¬IsWhiteSpace c) :
    ReadAsPlain file fs text ∧
      ∀ written, Json.readDocument text.toList = .ok written →
        (∀ v, Json.read text = .ok v ↔ written.StandsFor v) ∧
        ∀ ms, written = .obj ms → ∃ settings, ReadInOrder file fs ms settings := by
  refine ⟨readAsPlain h shown, fun written read => ⟨fun v => ?_, ?_⟩⟩
  · rw [Json.standsFor_iff, Json.read_of_readDocument read, Except.ok.injEq, eq_comm]
  · rintro ms rfl
    have loads (key : String) : load file key fs = .ok (settingsOf ms) := by
      rw [load_of_shown h shown, read]
    exact ⟨settingsOf ms, readInOrder_settingsOf loads⟩

/-- Of a key that is written in two ways the last value counts, and inside of it that of a repeated
name does. -/
theorem readers_of_repeated_keys :
    let text := "\x7b\"b\":[],\"\\u0061\":\"\",\"a\":\x7b\"y\":\"1\",\"x\":null,\"y\":\"2\"\x7d\x7d"
    let fs := holding text
    (get (bytesOf "s") "a" fs).result = .ok (some (.obj [("x", .null), ("y", .str "2")])) ∧
      ∃ settings, load (bytesOf "s") "a" fs = .ok settings ∧ settings.names = ["b", "a"] := by
  intro text fs
  let inner : Members := [("y", .str "1"), ("x", .null), ("y", .str "2")]
  let ms : Members := [("b", .arr []), ("a", .str ""), ("a", .obj inner)]
  have written : Json.readDocument text.toList = .ok (.obj ms) := by
    rw [show text.toList = _ from String.toList_ofList]
    with_unfolding_all rfl
  have shown : ∃ c ∈ text.toList, ¬IsWhiteSpace c := ⟨'b', by decide, by simp [IsWhiteSpace]⟩
  obtain ⟨plain, documents⟩ := readers_agree (readText_holding text) shown
  obtain ⟨stands, settings⟩ := documents _ written
  have value : Json.StandsFor (.obj ms) (Json.obj ms).canonical := Json.standsFor_canonical _
  have last : (Json.canonicalMembers ms).sorted.find? "a" =
      some (.obj [("x", .null), ("y", .str "2")]) := by
    rw [Json.find?_canonical]
    rfl
  refine ⟨(plain.finds "a" _).mpr ⟨_, (stands _).mpr value, last.symm⟩, ?_⟩
  obtain ⟨settings, inOrder⟩ := settings ms rfl
  exact ⟨settings, inOrder.load _, inOrder.names.trans (by decide)⟩

end CobolDialects.Settings.File
