import Mathlib
import CobolDialects.Proofs.Settings.Rewriting
import CobolDialects.Proofs.Settings.Temporaries

/-!
# Calls on a settings file, all at once

However the steps of many calls come one after the other, and wherever some of them stop, the
settings file is at every moment what it was at first or the whole document of one of the sets. So
each call reads the settings as they were at first or as one of the sets has left them.
-/

namespace CobolDialects.Settings.File

open FileSystem

variable {ι : Type} {refusals : Refusals} {file : Path} {first fs' : FileSystem} {t' : Task}
  {settings : Members} {begun : ι → Call} {calls : Calls ι} {i : ι}

/-- One of the sets has written these settings. -/
def Calls.Wrote (calls : Calls ι) (settings : Members) : Prop :=
  ∃ i a, calls.tasks i = .written a ∧ a.changed = settings

/-- The path is as it was at first, or shows the settings that one of the sets has written. -/
def Snapshot (file : Path) (first : FileSystem) (settings : Members) (calls : Calls ι) : Prop :=
  (calls.fs.readText file = first.readText file ∧ ∀ key, load file key calls.fs = .ok settings) ∨
    ∃ i a, calls.tasks i = .written a ∧ calls.fs.readText file = .ok (document a.changed) ∧
      ∀ key, load file key calls.fs = .ok a.changed

/-- Settings that can be written and read back. -/
structure Sane (settings : Members) : Prop where
  loaded : Loaded settings
  floatFree : ∀ m ∈ settings, m.2.floatFree

theorem Sane.upsert {key : String} {value : Json} (h : Sane settings) (storable : Storable value) :
    Sane (settings.upsert key value) where
  loaded := h.loaded.upsert key storable.canonical storable.depth_lt
  floatFree := floatFree_upsert key h.floatFree storable.floatFree

/-! ## What holds at every moment -/

/-- No two temporary files are one, and none is what the path shows. What a call knows is what there
was at first or what a set has written. -/
structure Consistent (file : Path) (first : FileSystem) (settings : Members) (begun : ι → Call)
    (calls : Calls ι) : Prop where
  intact : ∀ i temp text, (calls.tasks i).temporary? = some (temp, text) →
    Intact file calls.fs temp text
  apart : ∀ i j m n text text', i ≠ j → (calls.tasks i).temporary? = some (m, text) →
    (calls.tasks j).temporary? = some (n, text') → m.node ≠ n.node
  path : (first.readText file = .error .notFound ∧ Untouched file first calls.fs) ∨
    ∃ n text, Shows file calls.fs n text ∧
      (∀ i temp text, (calls.tasks i).temporary? = some (temp, text) → temp.node ≠ n) ∧
      (first.readText file = .ok text ∨
        ∃ i a, calls.tasks i = .written a ∧ text = document a.changed)
  call : ∀ i, (calls.tasks i).call? = some (begun i)
  read : ∀ i read, (calls.tasks i).read? = some read →
    (read = settings ∨ calls.Wrote read) ∧ Sane read

/-- What is asked of the start. -/
structure Start (file : Path) (first : FileSystem) (settings : Members) (begun : ι → Call) : Prop
    extends Steady file first where
  sound : first.Sound
  read : ∀ key, load file key first = .ok settings
  sane : Sane settings
  storable : ∀ i key value, begun i = .set key value → Storable value

theorem Start.consistent (start : Start file first settings begun) :
    Consistent file first settings begun ⟨first, fun i => .called (begun i)⟩ where
  intact _ _ _ never := by cases never
  apart _ _ _ _ _ _ _ never := by cases never
  path := by
    rcases legible_of_load (start.read "") with missing | ⟨text, read⟩
    · exact .inl ⟨missing, .inl (.refl _ first)⟩
    · obtain ⟨n, shows⟩ := shows_of_readText start.sound read
      exact .inr ⟨n, text, shows, (fun _ _ _ never => by cases never), .inl read⟩
  call _ := rfl
  read _ _ never := by cases never

theorem call?_of_writing? {t : Task} {a : Writing} (h : t.writing? = some a) :
    t.call? = some (.set a.key a.value) ∧ t.read? = some a.read := by
  cases t <;> cases h <;> exact ⟨rfl, rfl⟩

theorem Consistent.sane_changed {a : Writing} (h : Consistent file first settings begun calls)
    (start : Start file first settings begun) (there : (calls.tasks i).writing? = some a) :
    Sane a.changed := by
  obtain ⟨call, read⟩ := call?_of_writing? there
  have begins : begun i = .set a.key a.value := Option.some.inj ((h.call i).symm.trans call)
  exact (h.read i a.read read).2.upsert (start.storable i a.key a.value begins)

theorem load_of_missing {fs : FileSystem} (h : fs.fileNode file = .error .notFound) (key : String) :
    fs.readText file = .error .notFound ∧ load file key fs = .ok [] := by
  have missing : fs.readText file = .error .notFound := by
    simp only [FileSystem.readText, FileSystem.read, h, Except.map]
  exact ⟨missing, by rw [load, missing]⟩

theorem Consistent.snapshot (h : Consistent file first settings begun calls)
    (start : Start file first settings begun) : Snapshot file first settings calls := by
  rcases h.path with ⟨missing, untouched⟩ | ⟨n, text, shows, -, known⟩
  · have now := load_of_missing (untouched.fileNode start.toSteady missing)
    have empty : settings = [] := by
      have old := start.read ""
      rw [load, missing] at old
      exact (Except.ok.inj old).symm
    exact .inl ⟨(now "").1.trans missing.symm, fun key => empty ▸ (now key).2⟩
  · have now := shows.readText
    rcases known with old | ⟨i, a, written, rfl⟩
    · refine .inl ⟨now.trans old.symm, fun key => ?_⟩
      rw [load_of_readText now, ← load_of_readText old]
      exact start.read key
    · have there : (calls.tasks i).writing? = some a := by rw [written]; rfl
      have sane := h.sane_changed start there
      exact .inr ⟨i, a, written, now, load_of_document sane.floatFree sane.loaded now⟩

/-- Whoever reads the settings now reads what is known. -/
theorem Consistent.known {key : String} {read : Members}
    (h : Consistent file first settings begun calls) (start : Start file first settings begun)
    (now : load file key calls.fs = .ok read) :
    (read = settings ∨ calls.Wrote read) ∧ Sane read := by
  rcases h.snapshot start with ⟨-, loads⟩ | ⟨i, a, written, -, loads⟩
  · obtain rfl := Except.ok.inj ((loads key).symm.trans now)
    exact ⟨.inl rfl, start.sane⟩
  · obtain rfl := Except.ok.inj ((loads key).symm.trans now)
    have there : (calls.tasks i).writing? = some a := by rw [written]; rfl
    exact ⟨.inr ⟨i, a, written, rfl⟩, h.sane_changed start there⟩

theorem Consistent.load_ok (h : Consistent file first settings begun calls)
    (start : Start file first settings begun) (key : String) :
    ∃ read, load file key calls.fs = .ok read := by
  rcases h.snapshot start with ⟨-, loads⟩ | ⟨i, a, -, -, loads⟩
  · exact ⟨settings, loads key⟩
  · exact ⟨a.changed, loads key⟩

/-! ## Steps and runs -/

theorem Consistent.apart_of_effect {j : ι} {m n : Temporary} {text text' : Option String}
    (h : Consistent file first settings begun calls)
    (effect : Effect file calls.fs (calls.tasks i) t' fs') (ne : j ≠ i)
    (own : t'.temporary? = some (m, text)) (other : (calls.tasks j).temporary? = some (n, text')) :
    m.node ≠ n.node := by
  rcases node_of_effect effect own with ⟨old, before⟩ | fresh
  · exact h.apart i j m n old text' ne.symm before other
  · have lt := (h.intact j n text' other).node
    omega

variable [DecidableEq ι]

theorem advance_of_step (h : (calls.tasks i).step refusals file calls.fs = (t', fs')) :
    calls.advance file refusals i = ⟨fs', fun j => if j = i then t' else calls.tasks j⟩ := by
  rw [Calls.advance, h]

/-- What has been written stays written. -/
theorem written_of_step {j : ι} {a : Writing}
    (h : (calls.tasks i).step refusals file calls.fs = (t', fs'))
    (there : calls.tasks j = .written a) :
    (if j = i then t' else calls.tasks j) = .written a := by
  split_ifs with same
  · subst same
    rw [there, step_written] at h
    exact (Prod.mk.inj h).1.symm
  · exact there

/-- What a step makes of the path. -/
theorem Consistent.path_of_step (h : Consistent file first settings begun calls)
    (start : Start file first settings begun)
    (step : (calls.tasks i).step refusals file calls.fs = (t', fs')) :
    let after : Calls ι := ⟨fs', fun j => if j = i then t' else calls.tasks j⟩
    (first.readText file = .error .notFound ∧ Untouched file first fs') ∨
      ∃ n text, Shows file fs' n text ∧
        (∀ j temp text, (after.tasks j).temporary? = some (temp, text) → temp.node ≠ n) ∧
        (first.readText file = .ok text ∨
          ∃ j a, after.tasks j = .written a ∧ text = document a.changed) := by
  intro after
  have effect := effect_of_step step
  have own := h.intact i
  -- The one case in which the path comes to show something else, whatever it showed before.
  have published {a : Writing} {mine : Temporary} (before : calls.tasks i = .publishing a mine)
      (written : t' = .written a) (shows : Shows file fs' mine.node (document a.changed)) :
      ∃ n text, Shows file fs' n text ∧
        (∀ j temp text, (after.tasks j).temporary? = some (temp, text) → temp.node ≠ n) ∧
        (first.readText file = .ok text ∨
          ∃ j a, after.tasks j = .written a ∧ text = document a.changed) := by
    have last : after.tasks i = .written a := (if_pos rfl).trans written
    refine ⟨mine.node, _, shows, fun j temp text there => ?_, .inr ⟨i, a, last, rfl⟩⟩
    by_cases same : j = i
    · rw [same, last] at there
      cases there
    · rw [show after.tasks j = calls.tasks j from if_neg same] at there
      have mineThere : (calls.tasks i).temporary? = some (mine, some (document a.changed)) := by
        rw [before]
        rfl
      exact h.apart j i temp mine text _ same there mineThere
  rcases h.path with ⟨missing, untouched⟩ | ⟨n, text, shows, free, known⟩
  · rcases untouched.of_effect start.toSteady missing effect own with
      kept | ⟨a, mine, before, written, shows⟩
    · exact .inl ⟨missing, kept⟩
    · exact .inr (published before written shows)
  · refine .inr ?_
    rcases shows.of_effect effect own (free i) with kept | ⟨a, mine, before, written, shows⟩
    · refine ⟨n, text, kept, fun j temp text there => ?_, known.imp_right ?_⟩
      · by_cases same : j = i
        · rw [show after.tasks j = t' from if_pos same] at there
          rcases node_of_effect effect there with ⟨old, before⟩ | fresh
          · exact free i temp old before
          · have lt := shows.node
            omega
        · rw [show after.tasks j = calls.tasks j from if_neg same] at there
          exact free j temp text there
      · rintro ⟨j, a, written, same⟩
        exact ⟨j, a, written_of_step step written, same⟩
    · exact published before written shows

/-- One step keeps everything consistent. -/
theorem Consistent.advance (h : Consistent file first settings begun calls)
    (start : Start file first settings begun) (refusals : Refusals) (i : ι) :
    Consistent file first settings begun (calls.advance file refusals i) := by
  cases step : (calls.tasks i).step refusals file calls.fs with
  | mk t' fs' =>
    have effect := effect_of_step step
    have own := h.intact i
    rw [advance_of_step step]
    refine ⟨?_, ?_, h.path_of_step start step, ?_, ?_⟩
    · intro j temp text there
      simp only at there
      split_ifs at there with same
      · exact intact_own_of_effect effect own there
      · refine (h.intact j temp text there).of_effect effect own fun mine text' mineThere => ?_
        exact h.apart i j mine temp text' text (Ne.symm same) mineThere there
    · intro j k m n text text' ne one other
      simp only at one other
      split_ifs at one with first
      · rw [if_neg (first ▸ ne.symm)] at other
        exact h.apart_of_effect effect (first ▸ ne.symm) one other
      · split_ifs at other with second
        · exact (h.apart_of_effect effect (second ▸ ne) other one).symm
        · exact h.apart j k m n text text' ne one other
    · intro j
      simp only
      split_ifs with same
      · subst same
        rcases call?_of_step step with kept | ⟨key, e, failed⟩
        · exact kept.trans (h.call j)
        · obtain ⟨read, found⟩ := h.load_ok start key
          cases found.symm.trans failed
      · exact h.call j
    · intro j read there
      have known : (read = settings ∨ calls.Wrote read) ∧ Sane read := by
        simp only at there
        split_ifs at there with same
        · subst same
          rcases read?_of_step step there with before | ⟨key, found⟩
          · exact h.read j read before
          · exact h.known start found
        · exact h.read j read there
      refine ⟨known.1.imp_right ?_, known.2⟩
      rintro ⟨k, a, written, same⟩
      exact ⟨k, a, written_of_step step written, same⟩

/-- So does a whole run. -/
theorem Consistent.run (h : Consistent file first settings begun calls)
    (start : Start file first settings begun) (schedule : List (Refusals × ι)) :
    Consistent file first settings begun (Calls.run file schedule calls) := by
  induction schedule generalizing calls with
  | nil => exact h
  | cons turn rest ih => exact ih (h.advance start turn.1 turn.2)

/-- At every moment the path is as it was at first or shows the document of a set that is over; the
document holds the settings that the set has read, with its value. Every call reads settings of that
kind, and none fails to. -/
theorem calls_take_snapshots {key : String} (sound : first.Sound) (steady : Steady file first)
    (read : load file key first = .ok settings) (free : ∀ m ∈ settings, m.2.floatFree)
    (storable : ∀ i key value, begun i = .set key value → Storable value)
    (schedule : List (Refusals × ι))
    (run : Calls.run file schedule ⟨first, fun i => .called (begun i)⟩ = calls) :
    Snapshot file first settings calls ∧
      (∀ i e, calls.tasks i ≠ .unread e) ∧
      (∀ i a, (calls.tasks i).writing? = some a →
        begun i = .set a.key a.value ∧ Replaced a.key a.value a.read a.changed) ∧
      ∀ i read, (calls.tasks i).read? = some read → read = settings ∨ calls.Wrote read := by
  have start : Start file first settings begun :=
    { steady with
      sound := sound
      read := fun other => load_key other read
      sane := ⟨loaded_of_load read, free⟩
      storable := storable }
  have consistent := start.consistent.run start schedule
  rw [run] at consistent
  refine ⟨consistent.snapshot start, fun i e unread => ?_, fun i a there => ?_, ?_⟩
  · have call := consistent.call i
    rw [unread] at call
    cases call
  · obtain ⟨call, read⟩ := call?_of_writing? there
    have sane := (consistent.read i a.read read).2
    exact ⟨Option.some.inj ((consistent.call i).symm.trans call),
      replaced_upsert sane.loaded.nodup a.key a.value⟩
  · exact fun i read there => (consistent.read i read there).1

/-- A set that has read before another one is over makes its document from what was there then. -/
theorem snapshot_of_overtaken_set : ∃ calls : Calls Bool,
    Calls.run (bytesOf "s") ([true, false, true, true, true, true, true, false, false, false, false,
        false].map (Refusals.none, ·))
      ⟨empty, fun i => .called (.set (if i then "a" else "b") .null)⟩ = calls ∧
    (calls.tasks true).result? = some (.ok ()) ∧
    calls.fs.readText (bytesOf "s") = .ok (document [("b", .null)]) ∧
    Snapshot (bytesOf "s") empty [] calls := by
  have storable : ∀ (i : Bool) key value, Call.set (if i then "a" else "b") .null = .set key value →
      Storable value := by
    rintro i key value ⟨⟩
    exact ⟨rfl, rfl, by decide⟩
  have steady : Steady (bytesOf "s") empty := by
    refine ⟨fun name there temporary => ?_, fun at_ target never => ?_, rfl⟩
    · obtain rfl : name = bytesOf "s" := List.mem_singleton.mp there
      exact absurd temporary.starts (by decide)
    · unfold entry? at never
      split_ifs at never <;> cases never
  have read : load (bytesOf "s") "a" empty = .ok [] := by with_unfolding_all rfl
  have snapshot := fun schedule => (calls_take_snapshots sound_empty steady read (by simp) storable
    schedule rfl).1
  exact ⟨_, rfl, by cbv, by cbv, snapshot _⟩

/-- Where a missing directory hides that a file is in the way, a set that fails has made the
directory, and nothing is read from then on. -/
theorem get_fails_behind_made_directory : ∃ (first : FileSystem) (calls : Calls Bool),
    first.Sound ∧ Visible IsTemporary (Path.names (bytesOf "d/../x/s")) ∧
      load (bytesOf "d/../x/s") "k" first = .ok [] ∧
      Calls.run (bytesOf "d/../x/s") ([true, true, false].map (Refusals.none, ·))
        ⟨first, fun i => .called (if i then .set "a" .null else .get "k")⟩ = calls ∧
      calls.tasks false = .unread (.io .notDirectory) := by
  have sound : Sound ⟨[([bytesOf "x"], .file 0)], [⟨.bytes [], 0o644⟩], []⟩ := by
    intro at_ n there
    obtain ⟨-, rfl⟩ : at_ = [bytesOf "x"] ∧ n = 0 := by simpa using there
    exact Nat.zero_lt_one
  have visible : ∀ name ∈ Path.names (bytesOf "d/../x/s"), ¬bytesOf ".tmp" <+: name := by
    decide +kernel
  exact ⟨_, _, sound, fun name there temporary => visible name there temporary.starts, by cbv, rfl,
    by cbv⟩

end CobolDialects.Settings.File
