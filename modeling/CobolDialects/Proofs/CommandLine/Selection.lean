import CobolDialects.Logging.Directive
import CobolDialects.Proofs.Text.Encoding
import Mathlib.Tactic.Common

/-!
# Which filter is in use

The value of the variable is read as a whole or not at all, the level piece by piece. How a
directive is written plays no part in this, nor what a filter does with it. Either reading breaks
off at a directive that is broken. In the grammar of targets and levels such a one has white space
in front of it, and is cut at a distance from the start that lies inside a character.
-/

namespace CobolDialects.LogFilter

/-- The directive is understood. -/
def Reading.isOk {δ : Type} : Reading δ → Bool
  | .ok _ => true
  | .ignored _ | .broken => false

namespace Grammar

variable {δ φ : Type} (g : Grammar δ φ)

/-- Every directive of a text is understood. -/
def Understands (text : String) : Prop := ∀ p ∈ pieces text, (g.read p).isOk

instance (text : String) : Decidable (g.Understands text) :=
  inferInstanceAs (Decidable (∀ p ∈ pieces text, (g.read p).isOk))

/-- Reading breaks off at no directive of a text. -/
def Unbroken (text : String) : Prop := ∀ p ∈ pieces text, g.read p ≠ .broken

instance [DecidableEq δ] (text : String) : Decidable (g.Unbroken text) :=
  inferInstanceAs (Decidable (∀ p ∈ pieces text, g.read p ≠ .broken))

/-- The first directive of a text that is not understood. -/
def firstFault? (text : String) : Option (List Char) :=
  (pieces text).find? fun p => !(g.read p).isOk

/-- Reading a text as a whole breaks off at one of its directives. -/
def BreaksOn (text : String) : Prop := ∃ p, g.firstFault? text = some p ∧ g.read p = .broken

variable {g} {text level : String} {variableText : Option Bytes} {p : List Char}
  {ps : List (List Char)} {failure : Failure}

/-! ## Reading all pieces -/

/-- Where all pieces are understood both readings find the same, and nothing is said. -/
theorem exists_readAll (all : ∀ p ∈ ps, (g.read p).isOk) :
    ∃ ds, ds.length = ps.length ∧ g.readAll ps = .ok ds ∧ g.readSome ps = .ok (ds, []) := by
  induction ps with
  | nil => exact ⟨[], rfl, rfl, rfl⟩
  | cons p ps ih =>
    obtain ⟨ds, same, rest, some⟩ := ih fun q there => all q (List.mem_cons_of_mem _ there)
    have first := all p List.mem_cons_self
    cases read : g.read p with
    | ok d =>
      refine ⟨d :: ds, congrArg (· + 1) same, ?_, ?_⟩
      · rw [readAll, read, rest]
        rfl
      · rw [readSome, read, some]
        rfl
    | ignored | broken => rw [read] at first; cases first

/-- What is not understood first is what reading all pieces fails with. -/
theorem readAll_error (first : ps.find? (fun p => !(g.read p).isOk) = some p)
    (fails : g.readAll [p] = .error failure) : g.readAll ps = .error failure := by
  induction ps with
  | nil => cases first
  | cons q ps ih =>
    cases read : g.read q with
    | ok d =>
      rw [List.find?_cons_of_neg (by simp [read, Reading.isOk])] at first
      rw [readAll, read]
      dsimp only
      rw [ih first]
      rfl
    | ignored | broken =>
      rw [List.find?_cons_of_pos (by simp [read, Reading.isOk])] at first
      obtain rfl := Option.some.inj first
      simp only [readAll, read] at fails ⊢
      exact fails

/-- A tolerant reading breaks off at broken directives only. -/
theorem readSome_ok_iff :
    (∃ found, g.readSome ps = .ok found) ↔ ∀ p ∈ ps, g.read p ≠ .broken := by
  induction ps with
  | nil => simp [readSome]
  | cons p ps ih =>
    rw [List.forall_mem_cons, ← ih]
    cases read : g.read p with
    | ok | ignored =>
      simp only [readSome, read]
      cases g.readSome ps <;> simp [Except.map]
    | broken => simp [readSome, read]

/-! ## Reading a text in both ways -/

theorem firstFault?_eq_none : g.firstFault? text = none ↔ g.Understands text := by
  simp [firstFault?, Understands, List.find?_eq_none]

theorem Unbroken.not_breaksOn (h : g.Unbroken text) : ¬g.BreaksOn text :=
  fun ⟨p, first, broken⟩ => h p (List.mem_of_find?_eq_some first) broken

theorem strict_of_breaksOn (h : g.BreaksOn text) : g.strict text = .error .broken := by
  obtain ⟨p, first, broken⟩ := h
  have fails : g.readAll [p] = .error .broken := by simp only [readAll, broken]
  rw [strict, readAll_error first fails]
  rfl

/-- A text that is not understood as a whole is given up, unless reading it breaks off. -/
theorem strict_ignored (not : ¬g.Understands text) (unbroken : ¬g.BreaksOn text) :
    g.strict text = .error .ignored := by
  obtain ⟨p, first⟩ := Option.ne_none_iff_exists'.mp (mt firstFault?_eq_none.mp not)
  cases read : g.read p with
  | ok d =>
    have fault := List.find?_some first
    rw [read] at fault
    cases fault
  | ignored why =>
    have fails : g.readAll [p] = .error .ignored := by simp only [readAll, read]
    rw [strict, readAll_error first fails]
    rfl
  | broken => exact absurd ⟨p, first, read⟩ unbroken

theorem strict_understood (h : g.Understands text) : ∃ choice, g.strict text = .ok choice := by
  obtain ⟨ds, -, read, -⟩ := exists_readAll h
  exact ⟨⟨g.make ds, []⟩, by rw [strict, read]; rfl⟩

/-- Of a text that is understood as a whole both readings make the same, if there is anything in
it. -/
theorem lenient_eq_strict (some : pieces text ≠ []) (h : g.Understands text) :
    g.lenient text = g.strict text := by
  obtain ⟨ds, same, all, found⟩ := exists_readAll h
  rw [lenient, strict, all, found]
  cases ds with
  | nil => exact absurd (List.length_eq_zero_iff.mp same.symm) some
  | cons d ds => rfl

theorem lenient_ok_iff : (∃ choice, g.lenient text = .ok choice) ↔ g.Unbroken text := by
  rw [Unbroken, ← readSome_ok_iff, lenient]
  cases g.readSome (pieces text) <;> simp [Except.map]

/-! ## Selecting a filter -/

theorem select_of_no_text (level : String) (none : variableText.bind textOf? = none) :
    g.select variableText level = g.lenient level := by
  simp only [select, none]

theorem select_of_strict {choice : Choice φ} (level : String)
    (text? : variableText.bind textOf? = some text) (read : g.strict text = .ok choice) :
    g.select variableText level = .ok choice := by
  simp only [select, text?, read]

theorem select_of_ignored (level : String) (text? : variableText.bind textOf? = some text)
    (read : g.strict text = .error .ignored) : g.select variableText level = g.lenient level := by
  simp only [select, text?, read]

theorem select_of_broken (level : String) (text? : variableText.bind textOf? = some text)
    (read : g.strict text = .error .broken) : g.select variableText level = .error .broken := by
  simp only [select, text?, read]

/-- There is a filter in use if reading breaks off at no directive, whatever else is wrong with
them. -/
theorem exists_select (variableOf : ∀ text, variableText.bind textOf? = some text → g.Unbroken text)
    (levelOf : g.Unbroken level) : ∃ choice, g.select variableText level = .ok choice := by
  obtain ⟨choice, found⟩ := lenient_ok_iff.mpr levelOf
  cases given : variableText.bind textOf? with
  | none => exact ⟨choice, (select_of_no_text level given).trans found⟩
  | some text =>
    by_cases understood : g.Understands text
    · obtain ⟨choice, read⟩ := strict_understood understood
      exact ⟨choice, select_of_strict level given read⟩
    · have ignored := strict_ignored understood (variableOf text given).not_breaksOn
      exact ⟨choice, (select_of_ignored level given ignored).trans found⟩

end Grammar

end LogFilter

/-! ## Targets and levels -/

namespace Directive

variable {text target rest : List Char}

theorem cut_zero (cs : List Char) : cut 0 cs = some ([], cs) := by
  cases cs <;> rfl

/-- A text is cut behind the characters whose bytes are counted. -/
theorem cut_append (target rest : List Char) :
    cut (Utf8.size target) (target ++ rest) = some (target, rest) := by
  induction target with
  | nil => exact cut_zero rest
  | cons c target ih =>
    have positive := c.utf8Size_pos
    have far : Utf8.size (c :: target) ≠ 0 := by rw [Utf8.size]; omega
    have fits : c.utf8Size ≤ Utf8.size (c :: target) := by rw [Utf8.size]; omega
    have behind : Utf8.size (c :: target) - c.utf8Size = Utf8.size target := by
      rw [Utf8.size]
      omega
    rw [List.cons_append, cut, if_neg far, if_pos fits, behind, ih]
    rfl

/-- Nothing is taken off the front of a text that does not begin with white space. -/
theorem trim_prefix (flush : ∀ c ∈ text.head?, CharSet.whiteSpace.contains c = false) :
    trim text <+: text := by
  have front : text.dropWhile CharSet.whiteSpace.contains = text := by
    cases text with
    | nil => rfl
    | cons c cs => rw [List.dropWhile_cons, flush c rfl]; rfl
  have back := List.dropWhile_suffix CharSet.whiteSpace.contains (l := text.reverse)
  rw [trim, front]
  exact List.reverse_suffix.mp (by rwa [List.reverse_reverse])

theorem readThreshold_ne_broken (target cs : List Char) : readThreshold target cs ≠ .broken := by
  unfold readThreshold
  split_ifs
  · nofun
  · split <;> nofun

theorem takeWhile_ne (h : '=' ∉ target) :
    (target ++ '=' :: rest).takeWhile (· ≠ '=') = target := by
  have all : ∀ c ∈ target, (c ≠ '=' : Bool) = true := by
    intro c there
    simpa using ne_of_mem_of_not_mem there h
  rw [List.takeWhile_append_of_pos all]
  simp

/-- A directive that does not begin with white space is cut where one of its parts ends. -/
theorem read_ne_broken (flush : ∀ c ∈ text.head?, CharSet.whiteSpace.contains c = false) :
    read text ≠ .broken := by
  obtain ⟨space, whole⟩ := trim_prefix flush
  unfold read
  split
  · nofun
  rename_i c rest trimmed
  dsimp only
  split_ifs with start equals
  · nofun
  · obtain ⟨target, level, parts, first⟩ := List.eq_append_cons_of_mem (List.elem_iff.mp equals)
    rw [parts, takeWhile_ne first, ← whole, trimmed, parts, List.append_assoc, cut_append]
    have behind : cut 1 ('=' :: level ++ space) = some (['='], level ++ space) :=
      cut_append ['='] (level ++ space)
    simp only [behind]
    exact readThreshold_ne_broken _ _
  · split <;> nofun

end Directive

namespace LogFilter

/-- No directive of a text begins with white space. -/
def Flush (text : String) : Prop :=
  ∀ p ∈ pieces text, ∀ c ∈ p.head?, CharSet.whiteSpace.contains c = false

theorem Flush.unbroken {text : String} (h : Flush text) : Grammar.targets.Unbroken text :=
  fun p there => Directive.read_ne_broken (h p there)

/-! ## The variable and the level -/

/-- The value of the variable decides alone if everything in it is understood, and not at all if it
is unset, no text, or has a directive that is not understood; but where the first such directive is
broken there is no filter, whatever the level. A level alone makes a filter unless one of its
directives is broken. A text with directives in it, all of which are understood, makes the same
filter as the value of the variable and as the level. All this holds in any grammar; in that of
targets and levels a broken directive takes white space in front of it. -/
theorem variable_or_level {δ φ : Type} (g : Grammar δ φ) :
    (∀ variableText text, variableText.bind textOf? = some text → g.Understands text →
      ∃ choice, ∀ level, g.select variableText level = .ok choice) ∧
    (∀ variableText,
      (∀ text, variableText.bind textOf? = some text → ¬g.Understands text ∧ ¬g.BreaksOn text) →
      ∀ level, g.select variableText level = g.select none level) ∧
    (∀ variableText text, variableText.bind textOf? = some text → g.BreaksOn text →
      ∀ level, g.select variableText level = .error .broken) ∧
    (∀ level, (∃ choice, g.select none level = .ok choice) ↔
      ∀ p ∈ pieces level, g.read p ≠ .broken) ∧
    (∀ text level, pieces text ≠ [] → g.Understands text →
      g.select (some (bytesOf text)) level = g.select none text) ∧
    ∀ text, Flush text → ¬Grammar.targets.BreaksOn text := by
  have unset (level : String) : g.select none level = g.lenient level :=
    Grammar.select_of_no_text level rfl
  refine ⟨fun variableText text given understood => ?_, fun variableText faulty level => ?_,
    fun variableText text given breaks level => ?_, fun level => ?_,
    fun text level some understood => ?_, fun text flush => flush.unbroken.not_breaksOn⟩
  · obtain ⟨choice, read⟩ := Grammar.strict_understood understood
    exact ⟨choice, fun level => Grammar.select_of_strict level given read⟩
  · rw [unset]
    cases given : variableText.bind textOf? with
    | none => exact Grammar.select_of_no_text level given
    | some text =>
      obtain ⟨not, unbroken⟩ := faulty text given
      exact Grammar.select_of_ignored level given (Grammar.strict_ignored not unbroken)
  · exact Grammar.select_of_broken level given (Grammar.strict_of_breaksOn breaks)
  · rw [unset]
    exact Grammar.lenient_ok_iff
  · obtain ⟨choice, read⟩ := Grammar.strict_understood understood
    have given : (Option.some (bytesOf text)).bind textOf? = Option.some text :=
      textOf?_bytesOf text
    rw [Grammar.select_of_strict level given read, unset,
      Grammar.lenient_eq_strict some understood, read]

/-- Directives that are understood, two of them for one target; two of which one is not understood;
bytes that are no text; and two of which neither is, the first with a wide space in front of it. -/
theorem filters_of_variables :
    let g := Grammar.targets
    let named := some (bytesOf "a=warn,,a=info,debug")
    let faulty := some (bytesOf "a=warn,?")
    let broken := some (bytesOf "\u00a0a=info,?")
    (∃ choice, ∀ level, g.select named level = .ok choice) ∧
      g.select named "off" = g.select none "a=warn,,a=info,debug" ∧
      g.select faulty "off" = g.select none "off" ∧
      g.select (some [0xFF]) "off" = g.select none "off" ∧
      g.select broken "off" = .error .broken := by
  intro g named faulty broken
  obtain ⟨alone, without, breaking, -, same, unbroken⟩ := variable_or_level g
  have understood : g.Understands "a=warn,,a=info,debug" := by decide
  refine ⟨alone named _ (textOf?_bytesOf _) understood, same _ "off" (by decide) understood,
    without faulty ?_ "off", without _ ?_ "off", breaking broken _ (textOf?_bytesOf _) ?_ "off"⟩
  · intro text given
    obtain rfl : "a=warn,?" = text := by
      rw [← Option.some_inj, ← given]
      exact (textOf?_bytesOf _).symm
    have both : pieces "a=warn,?" = [['a', '=', 'w', 'a', 'r', 'n'], ['?']] := by decide
    have flush : Flush "a=warn,?" := by
      intro p there c first
      rw [both, List.mem_cons, List.mem_singleton] at there
      rcases there with rfl | rfl <;> cases first <;> decide
    exact ⟨by decide, unbroken _ flush⟩
  · intro text given
    have none : (some [0xFF]).bind textOf? = none := by decide
    rw [none] at given
    cases given
  · exact ⟨"\u00a0a=info".toList, by decide, by decide⟩

end LogFilter

end CobolDialects
