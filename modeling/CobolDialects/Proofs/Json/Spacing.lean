import CobolDialects.Proofs.Json.Canonical
import CobolDialects.Proofs.Json.Numbers

/-!
# Written values with any spacing

The compact form and the form over several lines differ only in the space between their parts, so
both are cases of one form. Of that form it is known how it begins, and how many calls reading it
takes.
-/

namespace CobolDialects.Json

/-- What sets the parts of a value apart: in front of an item and of the closing bracket of a level,
and behind a colon. -/
structure Spacing where
  gap : Nat → List Char
  colon : List Char
  gap_blank : ∀ level, ∀ c ∈ gap level, isSpace c = true
  colon_blank : ∀ c ∈ colon, isSpace c = true

namespace Spacing

/-- No space at all. -/
def tight : Spacing where
  gap _ := []
  colon := []
  gap_blank := by simp
  colon_blank := by simp

/-- Every item on a line of its own. -/
def lines : Spacing where
  gap := newline
  colon := [' ']
  gap_blank level c there := by
    rcases List.mem_cons.mp there with rfl | there
    · decide
    · rw [List.eq_of_mem_replicate there]
      decide
  colon_blank := List.forall_mem_singleton.mpr (by decide)

end Spacing

mutual

/-- A value as it is written at a level. -/
def spaced (sp : Spacing) (level : Nat) : Json → List Char
  | .null => ['n', 'u', 'l', 'l']
  | .bool true => ['t', 'r', 'u', 'e']
  | .bool false => ['f', 'a', 'l', 's', 'e']
  | .num n => writeNumber n
  | .str s => writeString s
  | .arr [] => ['[', ']']
  | .arr (v :: rest) =>
    '[' :: (sp.gap (level + 1) ++ (v.spaced sp (level + 1) ++ spacedItems sp level rest))
  | .obj [] => ['{', '}']
  | .obj ((name, v) :: rest) =>
    '{' :: (sp.gap (level + 1) ++ (writeString name ++ ':' :: (sp.colon ++
      (v.spaced sp (level + 1) ++ spacedMembers sp level rest))))

/-- The items after the first one, and the closing bracket. -/
def spacedItems (sp : Spacing) (level : Nat) : List Json → List Char
  | [] => sp.gap level ++ [']']
  | v :: rest =>
    ',' :: (sp.gap (level + 1) ++ (v.spaced sp (level + 1) ++ spacedItems sp level rest))

/-- The members after the first one, and the closing brace. -/
def spacedMembers (sp : Spacing) (level : Nat) : Members → List Char
  | [] => sp.gap level ++ ['}']
  | (name, v) :: rest =>
    ',' :: (sp.gap (level + 1) ++ (writeString name ++ ':' :: (sp.colon ++
      (v.spaced sp (level + 1) ++ spacedMembers sp level rest))))

end

/-! ## The two written forms -/

mutual

theorem spaced_tight (level : Nat) : ∀ v : Json, v.spaced .tight level = v.compact
  | .null | .bool true | .bool false | .num _ | .str _ | .arr [] | .obj [] => rfl
  | .arr (v :: rest) => by
    simp [spaced, compact, Spacing.tight, ← spaced_tight (level + 1) v,
      ← spacedItems_tight level rest]
  | .obj ((name, v) :: rest) => by
    simp [spaced, compact, Spacing.tight, ← spaced_tight (level + 1) v,
      ← spacedMembers_tight level rest]

theorem spacedItems_tight (level : Nat) :
    ∀ items : List Json, spacedItems .tight level items = compactItems items
  | [] => rfl
  | v :: rest => by
    simp [spacedItems, compactItems, Spacing.tight, ← spaced_tight (level + 1) v,
      ← spacedItems_tight level rest]

theorem spacedMembers_tight (level : Nat) :
    ∀ ms : Members, spacedMembers .tight level ms = compactMembers ms
  | [] => rfl
  | (name, v) :: rest => by
    simp [spacedMembers, compactMembers, Spacing.tight, ← spaced_tight (level + 1) v,
      ← spacedMembers_tight level rest]

end

mutual

theorem spaced_lines (level : Nat) : ∀ v : Json, v.spaced .lines level = v.pretty level
  | .null | .bool true | .bool false | .num _ | .str _ | .arr [] | .obj [] => rfl
  | .arr (v :: rest) => by
    simp [spaced, pretty, Spacing.lines, ← spaced_lines (level + 1) v,
      ← spacedItems_lines level rest]
  | .obj ((name, v) :: rest) => by
    simp [spaced, pretty, Spacing.lines, ← spaced_lines (level + 1) v,
      ← spacedMembers_lines level rest]

theorem spacedItems_lines (level : Nat) :
    ∀ items : List Json, spacedItems .lines level items = prettyItems level items
  | [] => rfl
  | v :: rest => by
    simp [spacedItems, prettyItems, Spacing.lines, ← spaced_lines (level + 1) v,
      ← spacedItems_lines level rest]

theorem spacedMembers_lines (level : Nat) :
    ∀ ms : Members, spacedMembers .lines level ms = prettyMembers level ms
  | [] => rfl
  | (name, v) :: rest => by
    simp [spacedMembers, prettyMembers, Spacing.lines, ← spaced_lines (level + 1) v,
      ← spacedMembers_lines level rest]

end

/-! ## How written values begin and how they go on -/

theorem skipSpace_blank {blank : List Char} (h : ∀ c ∈ blank, isSpace c = true)
    (cs : List Char) : skipSpace (blank ++ cs) = skipSpace cs :=
  List.dropWhile_append_of_pos h

theorem skipSpace_of_not_space {c : Char} (h : isSpace c = false) (cs : List Char) :
    skipSpace (c :: cs) = c :: cs := by
  simp [skipSpace, h]

theorem not_space_of_numeric {c : Char} (h : isNumeric c = true) :
    isSpace c = false ∧ c ≠ ']' ∧ c ≠ '}' := by
  refine ⟨?_, ?_, ?_⟩
  · by_contra space
    rw [not_numeric_of_space (Bool.of_not_eq_false space)] at h
    cases h
  all_goals
    rintro rfl
    cases h

/-- A written value begins neither with space nor with a closing bracket. -/
theorem exists_spaced (v : Json) (sp : Spacing) (level : Nat) :
    ∃ c tail, v.spaced sp level = c :: tail ∧ isSpace c = false ∧ c ≠ ']' ∧ c ≠ '}' := by
  match v with
  | .null => exact ⟨'n', _, rfl, by decide⟩
  | .bool true => exact ⟨'t', _, rfl, by decide⟩
  | .bool false => exact ⟨'f', _, rfl, by decide⟩
  | .num n =>
    have numeric := numeric_writeNumber n
    obtain ⟨c, tail, written⟩ := List.exists_cons_of_ne_nil numeric.ne_nil
    exact ⟨c, tail, written, not_space_of_numeric (numeric.chars c (by simp [written]))⟩
  | .str s => exact ⟨'"', _, rfl, by decide⟩
  | .arr [] | .arr (_ :: _) => exact ⟨'[', _, rfl, by decide⟩
  | .obj [] | .obj ((_, _) :: _) => exact ⟨'{', _, rfl, by decide⟩

theorem skipSpace_spaced (v : Json) (sp : Spacing) (level : Nat) (rest : List Char) : ∃ c tail,
    v.spaced sp level ++ rest = c :: tail ∧ skipSpace (c :: tail) = c :: tail ∧
      c ≠ ']' ∧ c ≠ '}' := by
  obtain ⟨c, tail, written, space, bracket, brace⟩ := exists_spaced v sp level
  exact ⟨c, tail ++ rest, by rw [written, List.cons_append], skipSpace_of_not_space space _,
    bracket, brace⟩

section Lists

variable (sp : Spacing) (level : Nat) (rest : List Char)

theorem skipSpace_spacedItems_nil : skipSpace (spacedItems sp level [] ++ rest) = ']' :: rest := by
  rw [spacedItems, List.append_assoc, skipSpace_blank (sp.gap_blank level)]
  exact skipSpace_of_not_space (by decide) rest

theorem skipSpace_spacedItems_cons (v : Json) (vs : List Json) :
    skipSpace (spacedItems sp level (v :: vs) ++ rest) =
      ',' :: (sp.gap (level + 1) ++ (v.spaced sp (level + 1) ++
        (spacedItems sp level vs ++ rest))) := by
  rw [spacedItems]
  simp only [List.cons_append, List.append_assoc]
  exact skipSpace_of_not_space (by decide) _

theorem skipSpace_spacedMembers_nil :
    skipSpace (spacedMembers sp level [] ++ rest) = '}' :: rest := by
  rw [spacedMembers, List.append_assoc, skipSpace_blank (sp.gap_blank level)]
  exact skipSpace_of_not_space (by decide) rest

theorem skipSpace_spacedMembers_cons (name : String) (v : Json) (ms : Members) :
    skipSpace (spacedMembers sp level ((name, v) :: ms) ++ rest) =
      ',' :: (sp.gap (level + 1) ++ (writeString name ++ ':' :: (sp.colon ++
        (v.spaced sp (level + 1) ++ (spacedMembers sp level ms ++ rest))))) := by
  rw [spacedMembers]
  simp only [List.cons_append, List.append_assoc]
  exact skipSpace_of_not_space (by decide) _

/-- Space, and then something apart from a number, is apart from a number. -/
theorem apart_blank {blank cs : List Char} (h : ∀ c ∈ blank, isSpace c = true) (apart : Apart cs) :
    Apart (blank ++ cs) := by
  cases blank with
  | nil => exact apart
  | cons c blank => exact apart_cons.mpr (not_numeric_of_space (h c List.mem_cons_self))

theorem apart_spacedItems (items : List Json) : Apart (spacedItems sp level items ++ rest) := by
  cases items with
  | nil => exact apart_of_skipSpace (skipSpace_spacedItems_nil sp level rest) rfl
  | cons v items => exact apart_of_skipSpace (skipSpace_spacedItems_cons sp level rest v items) rfl

theorem apart_spacedMembers (ms : Members) : Apart (spacedMembers sp level ms ++ rest) := by
  cases ms with
  | nil => exact apart_of_skipSpace (skipSpace_spacedMembers_nil sp level rest) rfl
  | cons m ms =>
    exact apart_of_skipSpace (skipSpace_spacedMembers_cons sp level rest m.1 m.2 ms) rfl

end Lists

/-! ## How many calls reading takes -/

mutual

/-- How deep the calls of the reader are nested in one another when it reads a value. -/
def weight : Json → Nat
  | .arr items => weightItems items + 1
  | .obj members => weightMembers members + 1
  | _ => 1

def weightItems : List Json → Nat
  | [] => 0
  | v :: rest => max v.weight (weightItems rest) + 1

def weightMembers : Members → Nat
  | [] => 0
  | (_, v) :: rest => max v.weight (weightMembers rest) + 1

end

theorem weightItems_cons_le {v : Json} {fuel : Nat} (vs : List Json) :
    weightItems (v :: vs) ≤ fuel + 1 ↔ v.weight ≤ fuel ∧ weightItems vs ≤ fuel := by
  rw [weightItems]
  omega

theorem weightMembers_cons_le {name : String} {v : Json} {fuel : Nat} (ms : Members) :
    weightMembers ((name, v) :: ms) ≤ fuel + 1 ↔ v.weight ≤ fuel ∧ weightMembers ms ≤ fuel := by
  rw [weightMembers]
  omega

mutual

/-- The reader is never nested deeper than twice the length of the text. -/
theorem weight_le (sp : Spacing) (level : Nat) :
    ∀ v : Json, v.weight ≤ 2 * (v.spaced sp level).length
  | .null | .bool true | .bool false => by simp [weight, spaced]
  | .num n => by
    obtain ⟨c, tail, written, -⟩ := exists_spaced (.num n) sp level
    simp only [weight, written, List.length_cons]
    omega
  | .str s => by
    simp only [weight, spaced, writeString, List.cons_append, List.length_cons]
    omega
  | .arr [] | .obj [] => by simp [weight, weightItems, weightMembers, spaced]
  | .arr (v :: rest) => by
    have head := weight_le sp (level + 1) v
    have tail := weightItems_le sp level rest
    simp only [weight, weightItems, spaced, List.length_cons, List.length_append]
    omega
  | .obj ((name, v) :: rest) => by
    have head := weight_le sp (level + 1) v
    have tail := weightMembers_le sp level rest
    simp only [weight, weightMembers, spaced, List.length_cons, List.length_append]
    omega

theorem weightItems_le (sp : Spacing) (level : Nat) : ∀ items : List Json,
    weightItems items + 2 ≤ 2 * (spacedItems sp level items).length
  | [] => by
    simp only [weightItems, spacedItems, List.length_append, List.length_singleton]
    omega
  | v :: rest => by
    have head := weight_le sp (level + 1) v
    have tail := weightItems_le sp level rest
    simp only [weightItems, spacedItems, List.length_cons, List.length_append]
    omega

theorem weightMembers_le (sp : Spacing) (level : Nat) : ∀ ms : Members,
    weightMembers ms + 2 ≤ 2 * (spacedMembers sp level ms).length
  | [] => by
    simp only [weightMembers, spacedMembers, List.length_append, List.length_singleton]
    omega
  | (name, v) :: rest => by
    have head := weight_le sp (level + 1) v
    have tail := weightMembers_le sp level rest
    simp only [weightMembers, spacedMembers, List.length_cons, List.length_append]
    omega

end

end CobolDialects.Json
