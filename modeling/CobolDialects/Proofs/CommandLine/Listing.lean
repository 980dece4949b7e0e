import CobolDialects.Proofs.Catalog.Registration
import CobolDialects.Proofs.CommandLine.Replies
import CobolDialects.Proofs.Settings.File

/-!
# Reading a list back

A list is printed without quoting anything: a tab stands between two fields and a line feed behind
each descriptor. It can be taken apart again if these two characters are in no field, and only then,
since a piece of a text that is taken apart at a character never holds that character.
-/

namespace CobolDialects.CommandLine

open Settings Catalog

/-- The texts between the places of a character. -/
def pieces (separator : Char) (text : String) : List String :=
  (text.toList.splitOn separator).map String.ofList

/-- The lines of a text in which every line ends in a line feed. -/
def linesOf (text : String) : List String := (pieces '\n' text).dropLast

/-- The fields of every line of a text. -/
def rowsOf (text : String) : List (List String) := (linesOf text).map (pieces '\t')

/-- The fields of a descriptor in the order in which they are listed. -/
def columns (d : Descriptor) : List String := [d.name, d.path, d.owner, d.description]

/-! ## Taking texts apart -/

section Pieces

variable {separator c : Char} {text piece : String} {lines : List String}

theorem not_mem_of_mem_splitOn {cs part : List Char} (h : part ∈ cs.splitOn separator) :
    separator ∉ part := by
  induction cs generalizing part with
  | nil =>
    obtain rfl : part = [] := by simpa using h
    exact List.not_mem_nil
  | cons c cs ih =>
    rw [List.splitOn_cons_eq_if_modifyHead] at h
    split_ifs at h with hit
    · rcases List.mem_cons.mp h with rfl | h
      · exact List.not_mem_nil
      · exact ih h
    · obtain ⟨first, others, split⟩ := List.exists_cons_of_ne_nil (List.splitOn_ne_nil separator cs)
      rw [split] at h ih
      rcases List.mem_cons.mp h with rfl | h
      · have other : separator ≠ c := fun same => hit (beq_iff_eq.mpr same.symm)
        exact List.not_mem_cons_of_ne_of_not_mem other (ih List.mem_cons_self)
      · exact ih (List.mem_cons_of_mem _ h)

theorem not_mem_of_mem_pieces (h : piece ∈ pieces separator text) : separator ∉ piece.toList := by
  obtain ⟨part, there, rfl⟩ := List.mem_map.mp h
  rw [String.toList_ofList]
  exact not_mem_of_mem_splitOn there

/-- A piece has no other characters than the text. -/
theorem mem_of_mem_pieces (h : piece ∈ pieces separator text) (inside : c ∈ piece.toList) :
    c ∈ text.toList := by
  obtain ⟨part, there, rfl⟩ := List.mem_map.mp h
  rw [String.toList_ofList] at inside
  obtain ⟨i, at_⟩ := List.mem_iff_getElem?.mp there
  have among :=
    List.mem_of_getElem? ((@List.getElem?_intersperse_two_mul _ _ [separator] _).trans at_)
  have whole : [separator].intercalate (text.toList.splitOn separator) = text.toList :=
    List.intercalate_splitOn separator
  rw [← whole]
  exact List.mem_flatten.mpr ⟨part, among, inside⟩

theorem pieces_of_not_mem (h : separator ∉ text.toList) : pieces separator text = [text] := by
  rw [pieces, List.splitOn_eq_singleton h, List.map_singleton, String.ofList_toList]

/-- The first piece is split off at the first place of the character. -/
theorem pieces_append (h : separator ∉ piece.toList) (text : String) :
    pieces separator (piece ++ String.singleton separator ++ text) =
      piece :: pieces separator text := by
  have whole : (piece ++ String.singleton separator ++ text).toList =
      piece.toList ++ separator :: text.toList := by simp
  rw [pieces, whole, List.splitOn_append_cons_self_of_not_mem h, List.map_cons,
    String.ofList_toList]
  rfl

theorem pieces_ne_nil (separator : Char) (text : String) : pieces separator text ≠ [] := by
  simp [pieces]

/-! ## Lines and fields -/

/-- Lines that are printed one after the other are found again. -/
theorem linesOf_join (h : ∀ line ∈ lines, '\n' ∉ line.toList) :
    linesOf (String.join (lines.map (· ++ "\n"))) = lines := by
  induction lines with
  | nil => rfl
  | cons line lines ih =>
    have split := pieces_append (h line List.mem_cons_self) (String.join (lines.map (· ++ "\n")))
    have whole : String.join ((line :: lines).map (· ++ "\n")) =
        line ++ String.singleton '\n' ++ String.join (lines.map (· ++ "\n")) := by
      simp [String.join_cons]
    have rest := ih fun other there => h other (List.mem_cons_of_mem _ there)
    rw [linesOf] at rest
    rw [linesOf, whole, split, List.dropLast_cons_of_ne_nil (pieces_ne_nil _ _), rest]

end Pieces

variable {ds : List Descriptor} {paths : List String}

/-- No line of a text holds a line feed. -/
theorem not_mem_of_mem_linesOf {text line : String} (h : line ∈ linesOf text) :
    '\n' ∉ line.toList :=
  not_mem_of_mem_pieces (List.dropLast_subset _ h)

theorem line_eq (d : Descriptor) :
    d.line = d.name ++ String.singleton '\t' ++ (d.path ++ String.singleton '\t' ++
      (d.owner ++ String.singleton '\t' ++ d.description)) := by
  have joined : d.line = d.name ++ "\t" ++ d.path ++ "\t" ++ d.owner ++ "\t" ++ d.description := rfl
  simp only [joined, String.append_assoc]
  rfl

theorem pieces_line {d : Descriptor} (h : ∀ text ∈ columns d, '\t' ∉ text.toList) :
    pieces '\t' d.line = columns d := by
  simp only [columns, List.forall_mem_cons] at h
  obtain ⟨name, path, owner, description, -⟩ := h
  rw [line_eq, pieces_append name, pieces_append path, pieces_append owner,
    pieces_of_not_mem description]
  rfl

theorem mem_line {d : Descriptor} {c : Char} (inside : c ∈ d.line.toList) :
    c = '\t' ∨ ∃ text ∈ columns d, c ∈ text.toList := by
  simpa [line_eq, columns, or_assoc, or_left_comm] using inside

/-- A registry that is listed can be read back just if no field has a tab or a line feed in it. -/
theorem rowsOf_plainList_iff : rowsOf (plainList ds) = ds.map columns ↔
    ∀ d ∈ ds, ∀ text ∈ columns d, '\t' ∉ text.toList ∧ '\n' ∉ text.toList := by
  have printed : plainList ds = String.join ((ds.map Descriptor.line).map (· ++ "\n")) := by
    rw [plainList, List.map_map]
    rfl
  constructor
  · intro same d there text field
    have row : columns d ∈ rowsOf (plainList ds) := by
      rw [same]
      exact List.mem_map_of_mem there
    obtain ⟨line, listed, split⟩ := List.mem_map.mp row
    have piece : text ∈ pieces '\t' line := split ▸ field
    exact ⟨not_mem_of_mem_pieces piece,
      fun inside => not_mem_of_mem_linesOf listed (mem_of_mem_pieces piece inside)⟩
  · intro free
    have lines : ∀ line ∈ ds.map Descriptor.line, '\n' ∉ line.toList := by
      intro line there inside
      obtain ⟨d, listed, rfl⟩ := List.mem_map.mp there
      rcases mem_line inside with tab | ⟨text, field, inside⟩
      · cases tab
      · exact (free d listed text field).2 inside
    rw [rowsOf, printed, linesOf_join lines, List.map_map]
    exact List.map_congr_left fun d there => pieces_line fun text field =>
      (free d there text field).1

theorem linesOf_pathLines_iff :
    linesOf (pathLines paths) = paths ↔ ∀ path ∈ paths, '\n' ∉ path.toList := by
  constructor
  · intro same path there
    rw [← same] at there
    exact not_mem_of_mem_linesOf there
  · intro free
    rw [pathLines, linesOf_join free]

/-! ## Registries that can be reached -/

theorem upsertAll_of_nodup {old : List Descriptor} (h : ((old ++ ds).map (·.name)).Nodup) :
    upsertAll old ds = old ++ ds := by
  induction ds generalizing old with
  | nil => exact (List.append_nil old).symm
  | cons d ds ih =>
    have new : ∀ e ∈ old, e.name ≠ d.name := by
      intro e there same
      rw [List.map_append, List.map_cons, List.nodup_append] at h
      exact h.2.2 _ (List.mem_map_of_mem there) _ List.mem_cons_self same
    have step : upsert old d = old ++ [d] := by
      rw [upsert, List.filter_eq_self.mpr fun e there => decide_eq_true (new e there)]
    have rest : upsertAll (old ++ [d]) ds = old ++ [d] ++ ds := ih (by simpa using h)
    rw [upsertAll, List.foldl_cons, step, ← upsertAll, rest, List.append_assoc]
    rfl

/-- To make something of the results of actions changes nothing about how they follow one
another. -/
theorem inTurn_map {σ α β : Type} (stores : Nat → Store σ) (f : α → β) (actions : List (Action α))
    (s : σ) : Action.inTurn stores (actions.map (·.map f)) s =
      ((Action.inTurn stores actions s).1.map (·.map f), (Action.inTurn stores actions s).2) := by
  induction actions generalizing stores s with
  | nil => rfl
  | cons a actions ih =>
    have made : (a.map f).Makes (stores 0) s _ _ _ := Action.Makes.map ⟨rfl, rfl, rfl⟩ f
    rw [List.map_cons, Action.inTurn_cons, made.result, made.state, ih]
    rfl

/-- Descriptors of different names that are registered in an empty registry are the registry. It
does not matter which store keeps it, as long as nothing fails below it. -/
theorem list_of_registered {σ : Type} {stores : Nat → Store σ} {holds : σ → Option Json → Prop}
    {fault : Error → Prop} {s : σ} {key : String} {value? : Option Json}
    (keeps : ∀ n, KeepsUnder key (stores n) holds fault) (start : holds s value?)
    (empty : listOf key value? = .ok []) (distinct : (ds.map (·.name)).Nodup) :
    let o := Action.inTurn stores (ds.map fun d => (Command.registering d).action key) s
    (∀ r ∈ o.1, ¬Action.Faulty fault r) →
      (∀ r ∈ o.1, r = .ok (.text "")) ∧
        ((list key).run (stores ds.length) o.2).Gives fault (.ok ds) fun _ => True := by
  intro o noFault
  have mapped := inTurn_map stores (fun () => Reply.text "") (ds.map (register key)) s
  rw [List.map_map] at mapped
  have same : o = _ := mapped
  rw [same] at noFault ⊢
  rcases leaves_listed keeps start empty ds with ⟨succeed, left, kept, behind⟩ | ⟨r, there, faulty⟩
  · refine ⟨fun r there => ?_, ?_⟩
    · obtain ⟨done, inside, rfl⟩ := List.mem_map.mp there
      rw [succeed done inside]
      rfl
    · have all : upsertAll [] ds = [] ++ ds := upsertAll_of_nodup distinct
      have listing := list_gives (keeps ds.length) kept
      rw [behind, all] at listing
      exact listing.mono fun _ _ => trivial
  · cases r with
    | ok => exact faulty.elim
    | error e => exact absurd faulty (noFault _ (List.mem_map_of_mem there))

/-- What is listed is the registry again, when it is taken apart at line feeds and every line at
tabs, if and only if no field of a descriptor has one of them in it; the printed paths are, when
they are taken apart at line feeds, if and only if none is in a path. Every registry in which no
name occurs twice is one that registering leads to, from an empty one, on whichever store. -/
theorem listings_read_back (key : String) (ds : List Descriptor) :
    (∀ (σ : Type) (store : Store σ) (s : σ), ((list key).run store s).result = .ok ds →
      ∃ listed printed, (Command.list false).conclusion store key s = .ok listed ∧
        Command.paths.conclusion store key s = .ok printed ∧
        (rowsOf listed = ds.map columns ↔
          ∀ d ∈ ds, ∀ text ∈ columns d, '\t' ∉ text.toList ∧ '\n' ∉ text.toList) ∧
        (linesOf printed = ds.map (·.path) ↔ ∀ d ∈ ds, '\n' ∉ d.path.toList)) ∧
    ((ds.map (·.name)).Nodup →
      ∀ (σ : Type) (stores : Nat → Store σ) (holds : σ → Members → Prop) (fault : Error → Prop)
        (s : σ), (∀ n, Keeps (stores n) holds fault) → holds s [] →
      let o := Action.inTurn stores (ds.map fun d => (Command.registering d).action key) s
      (∀ r ∈ o.1, ¬Action.Faulty fault r) →
        (∀ r ∈ o.1, r = .ok (.text "")) ∧
          ((list key).run (stores ds.length) o.2).Gives fault (.ok ds) fun _ => True) := by
  refine ⟨fun σ store s listing => ?_, fun distinct σ stores holds fault s keeps start => ?_⟩
  · have read := (makes_list store key s).result.symm.trans listing
    refine ⟨plainList ds, pathLines (ds.map Descriptor.path),
      Command.conclusion_of_reads (c := .list false) trivial read,
      Command.conclusion_of_reads (c := .paths) trivial read, rowsOf_plainList_iff, ?_⟩
    rw [linesOf_pathLines_iff, List.forall_mem_map]
  · exact list_of_registered (fun n => (keeps n).under key) ⟨[], start, rfl⟩ rfl distinct

/-- A tab in a name makes one field two, and a line feed in a path makes one path two. Both get into
a settings file that was missing. -/
theorem listing_of_awkward_names :
    let ds : List Descriptor := [⟨"\t", "\n", "", ""⟩]
    let store := File.store .none (bytesOf "s")
    let o := Action.inTurn (fun _ => store)
      (ds.map fun d => (Command.registering d).action "k") .empty
    (∀ r ∈ o.1, r = .ok (.text "")) ∧ ∃ listed printed,
      (Command.list false).conclusion store "k" o.2 = .ok listed ∧
      Command.paths.conclusion store "k" o.2 = .ok printed ∧
      rowsOf listed ≠ ds.map columns ∧ linesOf printed ≠ ds.map (·.path) := by
  intro ds store o
  have noFault : ∀ r ∈ o.1, ¬Action.Faulty (·.className = "Io") r := by decide +kernel
  have readable : ¬Action.Faulty (·.className = "Io") ((list "k").run store o.2).result := by
    decide +kernel
  obtain ⟨back, reached⟩ := listings_read_back "k" ds
  obtain ⟨succeed, reading⟩ := reached (by simp [ds]) _ _ _ _ _
    (fun _ => File.keeps .none (bytesOf "s")) (File.holds_nil fun _ => rfl) noFault
  have listing : ((list "k").run store o.2).result = .ok ds := by
    rcases reading with ⟨listing, -⟩ | ⟨e, faulty, failed⟩
    · exact listing
    · rw [failed] at readable
      exact absurd faulty readable
  obtain ⟨listed, printed, list, paths, rows, lines⟩ := back _ _ _ listing
  exact ⟨succeed, listed, printed, list, paths, mt rows.mp (by decide), mt lines.mp (by decide)⟩

end CobolDialects.CommandLine
