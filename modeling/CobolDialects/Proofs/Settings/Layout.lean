import CobolDialects.Proofs.Catalog.Calls
import CobolDialects.Proofs.Catalog.Upsert
import CobolDialects.Proofs.Json.Parts
import CobolDialects.Proofs.Settings.Keys
import CobolDialects.Proofs.Settings.Reading
import CobolDialects.Proofs.Settings.Rewriting

/-!
# The text of a settings file

Reading and writing a settings file that the store has written gives its text again, down to the
last byte. So a set leaves the texts of all members but one as they are, and it leaves the whole
file as it is where it sets what is there.
-/

namespace CobolDialects.Settings

theorem Store.Fails.state_replies {σ τ : Type} {stores : τ → Store σ} {s : σ} {e : String → Error}
    (h : ∀ t, (stores t).Fails s e) (calls : List (τ × Request)) :
    (replies stores calls s).2 = s := by
  induction calls with
  | nil => rfl
  | cons call calls ih =>
    obtain ⟨t, r⟩ := call
    have still : (r.run (stores t) s).2 = s := by
      cases r with
      | get key => exact ((h t).get key).2
      | set key value => exact ((h t).set key value).2
    simp only [replies, still, ih]

namespace File

open FileSystem

variable {file : Path} {first fs after : FileSystem} {settings table old new : Members}
  {key : String}
  {value : Json} {text : String} {refusals : Refusals}

/-! ## Members of a document -/

/-- One text differs from another one in the text of the member of a key, or in that it has that
member behind the others. -/
structure Edited (key : String) (value : Json) (before after : List Char) : Prop where
  members :
    (∃ front previous rest, Json.memberTexts before = front ++ previous :: rest ∧
      Json.memberTexts after = front ++ Json.memberText (key, value) :: rest ∧
      Json.IsMember key previous ∧ ∀ part ∈ front ++ rest, ¬Json.IsMember key part) ∨
    Json.memberTexts after = Json.memberTexts before ++ [Json.memberText (key, value)] ∧
      ∀ part ∈ Json.memberTexts before, ¬Json.IsMember key part
  /-- There is nothing to either text but its members. -/
  around : ∀ text ∈ [before, after], text = Json.objectText (Json.memberTexts text) ++ ['\n']

theorem toList_document (settings : Members) :
    (document settings).toList = (Json.obj settings).pretty 0 ++ ['\n'] := by
  simp [document, Json.toLines]

theorem memberTexts_document (settings : Members) :
    Json.memberTexts (document settings).toList = settings.map Json.memberText := by
  rw [toList_document, Json.memberTexts_pretty]

theorem not_isMember {name : String} {ms : Members} (h : name ∉ ms.names) :
    ∀ part ∈ ms.map Json.memberText, ¬Json.IsMember name part := by
  intro part there member
  obtain ⟨m, inside, rfl⟩ := List.mem_map.mp there
  exact h (List.mem_map.mpr ⟨m, inside, Json.isMember_memberText.mp member⟩)

theorem edited_of_replaced (h : Replaced key value old new) :
    Edited key value (document old).toList (document new).toList where
  members := by
    rw [memberTexts_document, memberTexts_document]
    rcases h.place with ⟨front, previous, rest, rfl, rfl⟩ | ⟨absent, rfl⟩
    · refine .inl ⟨front.map Json.memberText, Json.memberText (key, previous),
        rest.map Json.memberText, by simp, by simp, Json.isMember_memberText.mpr rfl, ?_⟩
      have distinct := h.nodup
      rw [Members.names_append, Members.names_cons, List.nodup_middle] at distinct
      rw [← List.map_append]
      apply not_isMember
      rw [Members.names_append]
      exact (List.nodup_cons.mp distinct).1
    · exact .inr ⟨by simp, not_isMember absent⟩
  around := by
    intro text there
    obtain ⟨ms, rfl⟩ : ∃ ms, text = (document ms).toList := by
      rcases List.mem_pair.mp there with rfl | rfl
      · exact ⟨old, rfl⟩
      · exact ⟨new, rfl⟩
    rw [memberTexts_document, toList_document, Json.pretty_obj]

/-! ## Files that the store has written -/

/-- The file holds a table in the form in which the store writes it. -/
structure Laid (file : Path) (first fs : FileSystem) (table : Members) : Prop extends
    Kept file first fs table where
  text : fs.readText file = .ok (document table)

theorem read_of_readText (h : fs.readText file = .ok text) : fs.read file = .ok (bytesOf text) := by
  unfold FileSystem.readText at h
  split at h
  · cases h
  · rename_i bytes read
    cases decoded : textOf? bytes with
    | none => simp [decoded] at h
    | some found =>
      rw [decoded] at h
      obtain rfl : found = text := Except.ok.inj h
      rw [read, textOf?_eq_some.mp decoded]

/-- Making the directories above a file that can be read does not hide it. -/
theorem readText_makeParents (h : fs.readText file = .ok text) :
    (makeParents file fs).2.readText file = .ok text := by
  have grown := @grown_makeParents file fs
  cases node : fs.fileNode file with
  | error e => simp [FileSystem.readText, FileSystem.read, node, Except.map] at h
  | ok n =>
    have found := grown.entries.fileNode grown.working node
    have content : (makeParents file fs).2.contentOf n = fs.contentOf n :=
      contentOf_congr (by rw [node?, node?, grown.nodes])
    rw [← h]
    simp only [FileSystem.readText, FileSystem.read, node, found, Except.map, content]

theorem laid_of_readText (sound : fs.Sound) (loaded : Loaded table)
    (free : ∀ m ∈ table, m.2.floatFree) (text : fs.readText file = .ok (document table)) :
    Laid file fs fs table where
  standing := ⟨sound, .inr ⟨_, text⟩, by rw [readText_makeParents text, text]⟩
  load := load_of_document free loaded text
  free := free
  verdict refusals settings := save_result refusals file settings [] fs
  text := text

theorem sound_of_save (sound : fs.Sound) {saved : FileSystem}
    (h : save refusals file settings fs = (.ok (), saved)) : saved.Sound := by
  obtain ⟨dir, made, parents, move⟩ := save_eq_ok h
  have soundMade := @sound_makeParents file fs sound
  rw [parents] at soundMade
  exact Sound.rename ((soundMade.addFile _ _).setContent _ _) move

/-- A set that succeeds writes the document of the new table, and one that fails writes nothing. -/
theorem Laid.set (h : Laid file first fs table) (refusals : Refusals) (key : String)
    (storable : Storable value) :
    Laid file first (set refusals file key value fs).state
      (if (set refusals file key value fs).result.isOk then table.upsert key value else table) := by
  obtain ⟨answer, kept⟩ := h.toKept.set refusals key storable
  obtain ⟨-, state⟩ := (readable_of_load h.load).set refusals key value
  have verdict := h.verdict refusals (table.upsert key value)
  cases saving : save refusals file (table.upsert key value) fs with
  | mk result left =>
    rw [saving] at verdict state
    rw [← verdict] at answer kept
    rw [answer]
    cases result with
    | ok =>
      refine ⟨kept, ?_⟩
      rw [state]
      exact (h.standing.written saving).2.1
    | error fault =>
      refine ⟨kept, ?_⟩
      rw [state]
      exact (h.standing.undone (undone_of_save saving)).2.1.trans h.text

/-- Setting what is there changes nothing. -/
theorem Laid.read_set (h : Laid file first fs table) (refusals : Refusals)
    (storable : Storable value) (there : table.find? key = some value) :
    (File.set refusals file key value fs).state.read file = fs.read file := by
  have same := (h.set refusals key storable).text
  rw [Members.upsert_of_find? there, ite_self] at same
  rw [read_of_readText same, read_of_readText h.text]

/-! ## Runs that do not change a value -/

/-- The request puts a value under a key, and is carried out. -/
def Puts (key : String) : Request × Reply → Prop
  | (.set used _, .done (.ok ())) => used = key
  | _ => False

theorem Laid.run (h : Laid file first fs table) (key : String) (refusals : Refusals) {r : Request}
    (sane : r.Sane) :
    ∃ left, Laid file first (r.run (store refusals file) fs).2 left ∧
      (¬Puts key (r, (r.run (store refusals file) fs).1) → left.find? key = table.find? key) := by
  cases r with
  | get used => exact ⟨table, h, fun _ => rfl⟩
  | set used v =>
    refine ⟨_, h.set refusals used sane, ?_⟩
    simp only [Request.run, store]
    intro quiet
    cases result : (File.set refusals file used v fs).result with
    | ok =>
      rw [result] at quiet
      have other : key ≠ used := fun same => quiet same.symm
      simp [Except.isOk, Except.toBool, Members.find?_upsert, other]
    | error e => rfl

/-- A value stays what it is as long as no set of its key is carried out. -/
theorem Laid.replies (h : Laid file first fs table) {calls : List (Refusals × Request)}
    (sane : ∀ call ∈ calls, call.2.Sane)
    (quiet : ∀ answered ∈ (replies (fun r => store r file) calls fs).1, ¬Puts key answered) :
    ∃ left, Laid file first (Settings.replies (fun r => store r file) calls fs).2 left ∧
      left.find? key = table.find? key := by
  induction calls generalizing fs table with
  | nil => exact ⟨table, h, rfl⟩
  | cons call calls ih =>
    obtain ⟨refusals, r⟩ := call
    obtain ⟨sane, later⟩ := List.forall_mem_cons.mp sane
    simp only [Settings.replies] at quiet ⊢
    obtain ⟨quiet, quietLater⟩ := List.forall_mem_cons.mp quiet
    obtain ⟨mid, laid, same⟩ := h.run key refusals sane
    obtain ⟨left, last, still⟩ := ih laid later quietLater
    exact ⟨left, last, still.trans (same quiet)⟩

/-- From here on, as long as no set of the key is carried out, to set the value again leaves every
byte of the file as it is, and so does registering a descriptor whose registration is what wrote the
value. -/
def Repeatable (file : Path) (key : String) (value : Json) (fs : FileSystem) : Prop :=
  ∀ calls : List (Refusals × Request), (∀ call ∈ calls, call.2.Sane) →
    let run := replies (fun r => store r file) calls fs
    (∀ answered ∈ run.1, ¬Puts key answered) → ∀ refusals,
      (set refusals file key value run.2).state.read file = run.2.read file ∧
      ∀ ds d, value = Catalog.encode (Catalog.upsert ds d) →
        ((Catalog.register key d).run (store refusals file) run.2).state.read file =
          run.2.read file

/-- Where a registration wrote the value, registering its descriptor again sets the same value. -/
theorem Laid.state_register (h : Laid file first fs table) (refusals : Refusals)
    {ds : List Descriptor} {d : Descriptor}
    (there : table.find? key = some (Catalog.encode (Catalog.upsert ds d))) :
    ((Catalog.register key d).run (store refusals file) fs).state =
      (File.set refusals file key (Catalog.encode (Catalog.upsert ds d)) fs).state := by
  have read : ((store refusals file).get key fs).result.bind (Catalog.listOf key) =
      .ok (Catalog.upsert ds d) := by
    simp [store, File.get, h.load, Except.map, there, Except.bind, Catalog.listOf]
  have made := (Catalog.makes_register_of_ok read d).state
  rw [Catalog.upsert_upsert] at made
  exact made

theorem Laid.repeatable (h : Laid file first fs table) (storable : Storable value)
    (there : table.find? key = some value) : Repeatable file key value fs := by
  intro calls sane run quiet refusals
  obtain ⟨left, last, same⟩ := h.replies sane quiet
  rw [there] at same
  have again := last.read_set refusals storable same
  refine ⟨again, ?_⟩
  rintro ds d rfl
  rw [last.state_register refusals same]
  exact again

/-- A file that cannot be read stays as it is, whatever is called for. -/
theorem repeatable_of_load {e : String → Error}
    (failed : ∀ key, load file key fs = .error (e key)) :
    Repeatable file key value fs := by
  have fails := (unreadable_of_load failed).calls
  intro calls sane run quiet refusals
  have still : run.2 = fs := Store.Fails.state_replies fails calls
  rw [still]
  refine ⟨congrArg (·.read file) ((fails refusals).set key value).2, ?_⟩
  rintro ds d -
  have registered := Store.Fails.run_bind ((fails refusals).run_list key) fun ds =>
    .emit (Catalog.registration ds d) (.set key (Catalog.encode (Catalog.upsert ds d)) .done)
  exact congrArg (·.read file) registered.2

/-! ## The whole call -/

/-- Behind a set that succeeds the file holds the document of the new table, or it cannot be
read. -/
theorem laid_of_set (sound : fs.Sound) (read : load file key fs = .ok settings)
    (free : ∀ m ∈ settings, m.2.floatFree) (storable : Storable value)
    (done : (set refusals file key value fs).result = .ok ())
    (state : (set refusals file key value fs).state = after) :
    Laid file after after (settings.upsert key value) ∨
      after.readText file = .error .notDirectory := by
  obtain ⟨found, again, saved⟩ := save_of_set done
  obtain rfl : settings = found := Except.ok.inj (read.symm.trans again)
  rw [state] at saved
  refine (readText_of_save saved).imp (fun text => ?_) And.left
  have loaded := (loaded_of_load read).upsert key storable.canonical storable.depth_lt
  exact laid_of_readText (sound_of_save sound saved) loaded
    (floatFree_upsert key free storable.floatFree) text

/-- A set that succeeds leaves the document of the settings with its value, if it leaves a text at
all. If the file held such a document before, the set has changed the text of one member or has
added it behind the others, and no other byte; and if the member had this very value, then no byte
at all, whether the set succeeded or not. So a set that is made again changes nothing, nor does a
registration that is, as long as nothing else was set under the key. -/
theorem set_edits_one_member (refusals : Refusals) (sound : fs.Sound)
    (read : load file key fs = .ok settings) (free : ∀ m ∈ settings, m.2.floatFree)
    (storable : Storable value) (state : (set refusals file key value fs).state = after) :
    ((set refusals file key value fs).result = .ok () →
      (∀ text, after.readText file = .ok text → text = document (settings.upsert key value)) ∧
        Repeatable file key value after) ∧
    (fs.readText file = .ok (document settings) →
      ((set refusals file key value fs).result = .ok () → ∃ text, after.readText file = .ok text ∧
        Edited key value (document settings).toList text.toList) ∧
      ((get file key fs).result = .ok (some value) →
        after.read file = fs.read file ∧ Repeatable file key value fs)) := by
  have loaded := loaded_of_load read
  refine ⟨fun done => ?_, fun text => ⟨fun done => ?_, fun there => ?_⟩⟩
  · rcases laid_of_set sound read free storable done state with laid | lost
    · have there : (settings.upsert key value).find? key = some value := by
        simp [Members.find?_upsert]
      refine ⟨fun text held => ?_, laid.repeatable storable there⟩
      exact Except.ok.inj (held.symm.trans laid.text)
    · have failed (other : String) : load file other after = .error (.io .notDirectory) :=
        load_of_fault lost (by decide) other
      refine ⟨fun text held => ?_, repeatable_of_load failed⟩
      cases held.symm.trans lost
  · have laid := (laid_of_readText sound loaded free text).set refusals key storable
    rw [done, state] at laid
    exact ⟨_, laid.text, edited_of_replaced (replaced_upsert loaded.nodup key value)⟩
  · have laid := laid_of_readText sound loaded free text
    have found : settings.find? key = some value := by
      simpa [get, read, Except.map] using there
    exact ⟨state ▸ laid.read_set refusals storable found, laid.repeatable storable found⟩

theorem sound_holding (text : String) : (holding text).Sound := by
  intro at_ n there
  obtain ⟨-, rfl⟩ : at_ = [bytesOf "s"] ∧ n = 0 := by simpa [holding] using there
  exact Nat.zero_lt_one

/-- Neither commas nor brackets in the values lead astray, and a descriptor is registered again
without a trace. -/
theorem set_edits_member_beside_brackets :
    let d : Descriptor := ⟨"idms", "\x7d,", "[", "\"]"⟩
    let ms : Members := [("r", Catalog.encode [d]), ("b", .arr [.obj [], .str ",\"\x7b"])]
    let fs := holding (document ms)
    (∃ text, (set .none (bytesOf "s") "r" .null fs).state.readText (bytesOf "s") = .ok text ∧
        Edited "r" .null (document ms).toList text.toList) ∧
      ((Catalog.register "r" d).run (store .none (bytesOf "s")) fs).state.read (bytesOf "s") =
        fs.read (bytesOf "s") := by
  intro d ms fs
  have text := readText_holding (document ms)
  have storable := Catalog.storable_encode [d]
  have loaded : Loaded ms :=
    { nodup := by decide
      canonical := List.forall_mem_cons.mpr ⟨storable.canonical, List.forall_mem_singleton.mpr rfl⟩
      depth_lt := by decide }
  have free : ∀ m ∈ ms, m.2.floatFree := by decide
  have read := load_of_document free loaded text "r"
  have saved : (save .none (bytesOf "s") (ms.upsert "r" .null) fs).1 = .ok () := by
    with_unfolding_all rfl
  constructor
  · have null : Storable .null := ⟨rfl, rfl, by decide⟩
    have edits := set_edits_one_member .none (sound_holding _) read free null rfl
    exact (edits.2 text).1 (set_of_save read saved)
  · have there : (get (bytesOf "s") "r" fs).result = .ok (some (Catalog.encode [d])) := by
      rw [get, read]
      rfl
    have edits := set_edits_one_member .none (sound_holding _) read free storable rfl
    exact (((edits.2 text).2 there).2 [] (by simp) (by simp [replies]) .none).2 [] d rfl

end File

end CobolDialects.Settings
