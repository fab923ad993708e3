import Scrape.Proofs.Text.Blank
import Scrape.Proofs.Text.Integer
import Scrape.Proofs.XPath.Enclosed

/-!
# XPath — Spelling

How a query is written: paths with a bar between them, of steps with slashes before them, each
with its predicates in square brackets (`SpellsQuery`).  A literal may stand between quotes of
either kind, if it does not hold them.  What is written for a step is neat: each literal and each
bracket in it is closed, and there are no blanks at its ends (`SpellsStep.neat`).

Main statement (`exists_spellsQuery`): for every query that can be written there is a text.
-/

namespace Scrape.XPath

open Scrape.Text (decimal isBlank isBlank_of_isDigit isDigit trim trimEnd_of_trim trim_append
  trim_cons_append trim_of_forall)

/-! ### How a query is written -/

/-- A literal between quotes that it does not hold. -/
inductive SpellsLiteral (v : String) : List Char → Prop where
  | mk {q : Char} (hq : q = '\'' ∨ q = '"') (hv : q ∉ v.toList) :
      SpellsLiteral v (q :: (v.toList ++ [q]))

/-- What is written for an operand. -/
def Operand.spelling : Operand → List Char
  | .attr n  => '@' :: n.toList
  | .ownText => "text()".toList
  | .value   => ['.']

theorem Operand.spelling_ownText : Operand.ownText.spelling = "text()".toList := rfl

/-- What is written in the square bracket of a predicate. -/
inductive SpellsPredicate : Predicate → List Char → Prop where
  | position (n : Nat) : SpellsPredicate (.position n) (decimal n)
  | last : SpellsPredicate .last "last()".toList
  | hasAttr (n : String) : SpellsPredicate (.hasAttr n) ('@' :: n.toList)
  | equals {v : String} {lit : List Char} (op : Operand) (h : SpellsLiteral v lit) :
      SpellsPredicate (.equals op v) (op.spelling ++ '=' :: lit)
  | contains {v : String} {lit : List Char} (op : Operand) (h : SpellsLiteral v lit) :
      SpellsPredicate (.contains op v)
        ("contains".toList ++ '(' :: (op.spelling ++ ',' :: lit ++ [')']))
  | startsWith {v : String} {lit : List Char} (op : Operand) (h : SpellsLiteral v lit) :
      SpellsPredicate (.startsWith op v)
        ("starts-with".toList ++ '(' :: (op.spelling ++ ',' :: lit ++ [')']))

/-- Predicates, each in a square bracket. -/
inductive SpellsPredicates : List Predicate → List Char → Prop where
  | nil : SpellsPredicates [] []
  | cons {p : Predicate} {ps : List Predicate} {s t : List Char} (h : SpellsPredicate p s)
      (hrest : SpellsPredicates ps t) : SpellsPredicates (p :: ps) ('[' :: (s ++ ']' :: t))

/-- What is written for a test. -/
def Test.spelling : Test → List Char
  | .name n => n.toList
  | .any    => ['*']
  | .self   => ['.']
  | .parent => ['.', '.']
  | .text   => "text()".toList
  | .attr n => '@' :: n.toList

/-- A test with its predicates. -/
inductive SpellsStep (step : Step) : List Char → Prop where
  | mk {s : List Char} (h : SpellsPredicates step.predicates s) :
      SpellsStep step (step.test.spelling ++ s)

/-- What is written for an axis before a step. -/
def Axis.spelling : Axis → List Char
  | .child      => ['/']
  | .descendant => ['/', '/']

/-- Steps, each with its slashes before it. -/
inductive SpellsSteps : List Step → List Char → Prop where
  | nil : SpellsSteps [] []
  | cons {step : Step} {steps : List Step} {s t : List Char} (h : SpellsStep step s)
      (hrest : SpellsSteps steps t) :
      SpellsSteps (step :: steps) (step.axis.spelling ++ (s ++ t))

/-- The steps of a path; the first step of a relative path goes to children and has no slash. -/
inductive SpellsPath : Path → List Char → Prop where
  | absolute {steps : List Step} {s : List Char} (h : SpellsSteps steps s) :
      SpellsPath ⟨true, steps⟩ s
  | relative {step : Step} {steps : List Step} {s t : List Char} (haxis : step.axis = .child)
      (h : SpellsStep step s) (hrest : SpellsSteps steps t) :
      SpellsPath ⟨false, step :: steps⟩ (s ++ t)

/-- Paths with a bar between them. -/
inductive SpellsQuery (q : Query) : List Char → Prop where
  | mk {texts : List (List Char)} (h : List.Forall₂ SpellsPath q.paths texts) :
      SpellsQuery q (" | ".toList.intercalate texts)

/-! ### What can be written -/

/-- The name of an attribute: word characters, hyphens, points and colons. -/
def IsAttributeName (n : String) : Prop := n ≠ "" ∧ ∀ c ∈ n.toList, isNameChar c = true

/-- The name of an element, in lower case: letters, numbers, hyphens, underscores and colons. -/
def IsElementName (n : String) : Prop :=
  n ≠ "" ∧ (∀ c ∈ n.toList, Text.isAlphanumeric c = true ∨ c = '-' ∨ c = '_' ∨ c = ':') ∧
    Text.asciiLower n.toList = n.toList

/-- A literal has no backslash, and the quotes of one kind are not in it. -/
def IsLiteral (v : String) : Prop := '\\' ∉ v.toList ∧ ('\'' ∉ v.toList ∨ '"' ∉ v.toList)

def Operand.IsWritable : Operand → Prop
  | .attr n => IsAttributeName n
  | .ownText | .value => True

/-- Places count from one and are of 64 bits. -/
def Predicate.IsWritable : Predicate → Prop
  | .position n => 0 < n ∧ n < 0x10000000000000000
  | .last       => True
  | .hasAttr n  => IsAttributeName n
  | .equals op v | .contains op v | .startsWith op v => op.IsWritable ∧ IsLiteral v

def Test.IsWritable : Test → Prop
  | .name n => IsElementName n
  | .attr n => IsAttributeName n
  | .any | .self | .parent | .text => True

def Step.IsWritable (step : Step) : Prop :=
  step.test.IsWritable ∧ ∀ p ∈ step.predicates, p.IsWritable

/-- A path has a step, and the first step of a relative one goes to children. -/
def Path.IsWritable (path : Path) : Prop :=
  path.steps ≠ [] ∧ (∀ step ∈ path.steps, step.IsWritable) ∧
    (path.absolute = false → ∀ step ∈ path.steps.head?, step.axis = .child)

/-- A query has a path. -/
def Query.IsWritable (q : Query) : Prop := q.paths ≠ [] ∧ ∀ path ∈ q.paths, path.IsWritable

instance (n : String) : Decidable (IsAttributeName n) :=
  decidable_of_iff (n ≠ "" ∧ n.toList.all isNameChar) (and_congr_right fun _ => List.all_eq_true)

instance (n : String) : Decidable (IsElementName n) :=
  decidable_of_iff (n ≠ "" ∧
      (n.toList.all fun c => Text.isAlphanumeric c || c = '-' || c = '_' || c = ':') ∧
        Text.asciiLower n.toList = n.toList)
    (by simp [IsElementName, or_assoc])

instance (v : String) : Decidable (IsLiteral v) := inferInstanceAs (Decidable (_ ∧ (_ ∨ _)))

instance : DecidablePred Operand.IsWritable
  | .attr n => inferInstanceAs (Decidable (IsAttributeName n))
  | .ownText | .value => isTrue trivial

instance : DecidablePred Predicate.IsWritable
  | .position n => inferInstanceAs (Decidable (0 < n ∧ n < _))
  | .last       => isTrue trivial
  | .hasAttr n  => inferInstanceAs (Decidable (IsAttributeName n))
  | .equals op v | .contains op v | .startsWith op v =>
    inferInstanceAs (Decidable (op.IsWritable ∧ IsLiteral v))

instance : DecidablePred Test.IsWritable
  | .name n => inferInstanceAs (Decidable (IsElementName n))
  | .attr n => inferInstanceAs (Decidable (IsAttributeName n))
  | .any | .self | .parent | .text => isTrue trivial

instance (step : Step) : Decidable step.IsWritable := inferInstanceAs (Decidable (_ ∧ _))

instance (path : Path) : Decidable path.IsWritable := inferInstanceAs (Decidable (_ ∧ _ ∧ _))

instance (q : Query) : Decidable q.IsWritable := inferInstanceAs (Decidable (_ ∧ _))

/-! ### There is a text -/

theorem exists_spellsLiteral {v : String} (h : IsLiteral v) : ∃ s, SpellsLiteral v s := by
  rcases h.2 with hv | hv
  · exact ⟨_, .mk (.inl rfl) hv⟩
  · exact ⟨_, .mk (.inr rfl) hv⟩

theorem exists_spellsPredicate {p : Predicate} (h : p.IsWritable) : ∃ s, SpellsPredicate p s := by
  cases p with
  | position n => exact ⟨_, .position n⟩
  | last => exact ⟨_, .last⟩
  | hasAttr n => exact ⟨_, .hasAttr n⟩
  | equals op v =>
    obtain ⟨lit, hlit⟩ := exists_spellsLiteral h.2
    exact ⟨_, .equals op hlit⟩
  | contains op v =>
    obtain ⟨lit, hlit⟩ := exists_spellsLiteral h.2
    exact ⟨_, .contains op hlit⟩
  | startsWith op v =>
    obtain ⟨lit, hlit⟩ := exists_spellsLiteral h.2
    exact ⟨_, .startsWith op hlit⟩

theorem exists_spellsPredicates {ps : List Predicate} (h : ∀ p ∈ ps, p.IsWritable) :
    ∃ s, SpellsPredicates ps s := by
  induction ps with
  | nil => exact ⟨_, .nil⟩
  | cons p ps ih =>
    rw [List.forall_mem_cons] at h
    obtain ⟨s, hs⟩ := exists_spellsPredicate h.1
    obtain ⟨t, ht⟩ := ih h.2
    exact ⟨_, .cons hs ht⟩

theorem exists_spellsStep {step : Step} (h : step.IsWritable) : ∃ s, SpellsStep step s := by
  obtain ⟨s, hs⟩ := exists_spellsPredicates h.2
  exact ⟨_, .mk hs⟩

theorem exists_spellsSteps {steps : List Step} (h : ∀ step ∈ steps, step.IsWritable) :
    ∃ s, SpellsSteps steps s := by
  induction steps with
  | nil => exact ⟨_, .nil⟩
  | cons step steps ih =>
    rw [List.forall_mem_cons] at h
    obtain ⟨s, hs⟩ := exists_spellsStep h.1
    obtain ⟨t, ht⟩ := ih h.2
    exact ⟨_, .cons hs ht⟩

theorem exists_spellsPath {path : Path} (h : path.IsWritable) : ∃ s, SpellsPath path s := by
  obtain ⟨absolute, steps⟩ := path
  obtain ⟨hne, hsteps, haxis⟩ := h
  cases absolute with
  | true =>
    obtain ⟨s, hs⟩ := exists_spellsSteps hsteps
    exact ⟨s, .absolute hs⟩
  | false =>
    obtain ⟨step, steps, rfl⟩ := List.exists_cons_of_ne_nil hne
    rw [List.forall_mem_cons] at hsteps
    obtain ⟨s, hs⟩ := exists_spellsStep hsteps.1
    obtain ⟨t, ht⟩ := exists_spellsSteps hsteps.2
    exact ⟨_, .relative (haxis rfl step rfl) hs ht⟩

/-- **Every query that can be written** has a text. -/
theorem exists_spellsQuery {q : Query} (h : q.IsWritable) : ∃ s, SpellsQuery q s := by
  have htexts : ∀ paths : List Path, (∀ path ∈ paths, path.IsWritable) →
      ∃ texts, List.Forall₂ SpellsPath paths texts := by
    intro paths
    induction paths with
    | nil => exact fun _ => ⟨[], .nil⟩
    | cons path paths ih =>
      rw [List.forall_mem_cons]
      rintro ⟨hpath, hpaths⟩
      obtain ⟨s, hs⟩ := exists_spellsPath hpath
      obtain ⟨texts, htexts⟩ := ih hpaths
      exact ⟨s :: texts, .cons hs htexts⟩
  obtain ⟨texts, htexts⟩ := htexts q.paths h.2
  exact ⟨_, .mk htexts⟩

/-! ### Neat texts -/

/-- Trimmed texts, one after the other, are a trimmed text. -/
theorem trim_append_eq {s t : List Char} (hs : trim s = s) (hne : s ≠ []) (ht : trim t = t) :
    trim (s ++ t) = s ++ t := by
  rw [trim_append hs hne, trimEnd_of_trim ht]

/-- A text within which every literal and every bracket is closed, without blanks at its ends. -/
structure Neat (s : List Char) : Prop where
  ne_nil : s ≠ []
  trim_eq : trim s = s
  enclosed : Enclosed s

namespace Neat

variable {s t : List Char}

theorem append (hs : Neat s) (ht : Neat t) : Neat (s ++ t) where
  ne_nil := List.append_ne_nil_of_left_ne_nil hs.ne_nil t
  trim_eq := trim_append_eq hs.trim_eq hs.ne_nil ht.trim_eq
  enclosed := hs.enclosed.append ht.enclosed

theorem of_forall (hne : s ≠ []) (h : ∀ c ∈ s, isBlank c = false ∧ c ∉ signs) : Neat s where
  ne_nil := hne
  trim_eq := trim_of_forall fun c hc => (h c hc).1
  enclosed := .of_forall fun c hc => (h c hc).2

/-- The same for a fixed text. -/
theorem of_all (hne : s ≠ []) (h : (s.all fun c => !isBlank c && !signs.contains c) = true) :
    Neat s :=
  .of_forall hne (by simpa using h)

theorem cons {c : Char} (hblank : isBlank c = false) (hsign : c ∉ signs) (ht : Neat t) :
    Neat (c :: t) :=
  (of_forall (s := [c]) (List.cons_ne_nil c []) (by simp [hblank, hsign])).append ht

theorem round (h : Enclosed s) : Neat ('(' :: (s ++ [')'])) where
  ne_nil := List.cons_ne_nil _ _
  trim_eq := trim_cons_append (by decide) (by decide) s
  enclosed := .round h .nil

theorem square (h : Enclosed s) : Neat ('[' :: (s ++ [']'])) where
  ne_nil := List.cons_ne_nil _ _
  trim_eq := trim_cons_append (by decide) (by decide) s
  enclosed := .square h .nil

end Neat

/-! ### What is written for a step is neat -/

theorem isBlank_of_isAsciiLetter {c : Char} (h : Text.isAsciiLetter c = true) :
    isBlank c = false := by
  simp [Text.isAsciiLetter, Char.le_def, UInt32.le_iff_toNat_le] at h
  simp [isBlank]
  omega

/-- No letter or number is a blank. -/
theorem isBlank_of_isAlphanumeric {c : Char} (h : Text.isAlphanumeric c = true) :
    isBlank c = false := by
  unfold Text.isAlphanumeric at h
  split at h
  · exact (Bool.or_eq_true_iff.mp h).elim isBlank_of_isAsciiLetter isBlank_of_isDigit
  · simpa using (Bool.and_eq_true_iff.mp h).1

/-- No part of a word is a blank. -/
theorem isBlank_of_isWordChar {c : Char} (h : Text.isWordChar c = true) : isBlank c = false := by
  unfold Text.isWordChar at h
  split at h
  · rw [Bool.or_eq_true, decide_eq_true_eq] at h
    rcases h with h | rfl
    · exact (Bool.or_eq_true_iff.mp h).elim isBlank_of_isAsciiLetter isBlank_of_isDigit
    · decide
  · simpa using (Bool.and_eq_true_iff.mp h).1

theorem isBlank_of_isNameChar {c : Char} (h : isNameChar c = true) : isBlank c = false := by
  simp only [isNameChar, Bool.or_eq_true, decide_eq_true_eq] at h
  rcases h with ((h | rfl) | rfl) | rfl
  · exact isBlank_of_isWordChar h
  all_goals decide

/-- A character of a kind that no sign is of is no sign. -/
theorem notMem_signs {p : Char → Bool} (hnone : signs.any p = false) {c : Char} (h : p c = true) :
    c ∉ signs := fun hmem =>
  List.any_eq_false.mp hnone c hmem h

theorem isDigit_of_mem_decimal {n : Nat} {c : Char} (hc : c ∈ decimal n) : isDigit c = true := by
  rw [Text.isDigit_eq]
  exact Nat.isDigit_of_mem_toDigits (by decide) (by decide) hc

theorem IsAttributeName.forall_mem {n : String} (h : IsAttributeName n) :
    ∀ c ∈ n.toList, isBlank c = false ∧ c ∉ signs := fun c hc =>
  ⟨isBlank_of_isNameChar (h.2 c hc), notMem_signs (by decide) (h.2 c hc)⟩

theorem IsElementName.forall_mem {n : String} (h : IsElementName n) :
    ∀ c ∈ n.toList, isBlank c = false ∧ c ∉ signs := by
  intro c hc
  rcases h.2.1 c hc with hc | rfl | rfl | rfl
  · exact ⟨isBlank_of_isAlphanumeric hc, notMem_signs (by decide) hc⟩
  all_goals decide

theorem IsAttributeName.neat {n : String} (h : IsAttributeName n) : Neat n.toList :=
  .of_forall (by simpa using h.1) h.forall_mem

theorem IsElementName.neat {n : String} (h : IsElementName n) : Neat n.toList :=
  .of_forall (by simpa using h.1) h.forall_mem

theorem neat_text : Neat "text()".toList :=
  .append (s := "text".toList) (.of_all (by decide) (by decide)) (.round .nil)

theorem SpellsLiteral.neat {v : String} {s : List Char} (h : SpellsLiteral v s)
    (hv : IsLiteral v) : Neat s := by
  cases h with
  | @mk q hq hnot =>
    have hblank : isBlank q = false := by
      rcases hq with rfl | rfl <;> decide
    have hinner : ∀ c ∈ v.toList, c ≠ q ∧ c ≠ '\\' := fun c hc =>
      ⟨fun heq => hnot (heq ▸ hc), fun heq => hv.1 (heq ▸ hc)⟩
    exact ⟨List.cons_ne_nil _ _, trim_cons_append hblank hblank _, .literal hq hinner .nil⟩

theorem Operand.neat {op : Operand} (h : op.IsWritable) : Neat op.spelling := by
  cases op with
  | attr n => exact .cons (by decide) (by decide) (IsAttributeName.neat h)
  | ownText => exact neat_text
  | value => exact .of_all (by decide) (by decide)

theorem SpellsPredicate.neat {p : Predicate} {s : List Char} (h : SpellsPredicate p s)
    (hp : p.IsWritable) : Neat s := by
  have hcall {name : List Char} {op : Operand} {v : String} {lit : List Char}
      (hname : Neat name) (hlit : SpellsLiteral v lit) (h : op.IsWritable ∧ IsLiteral v) :
      Neat (name ++ '(' :: (op.spelling ++ ',' :: lit ++ [')'])) :=
    hname.append (.round ((Operand.neat h.1).append
      (.cons (by decide) (by decide) (hlit.neat h.2))).enclosed)
  cases h with
  | position n =>
    refine .of_forall Nat.toDigits_ne_nil fun c hc => ?_
    have hdigit := isDigit_of_mem_decimal hc
    exact ⟨isBlank_of_isDigit hdigit, notMem_signs (by decide) hdigit⟩
  | last => exact .append (s := "last".toList) (.of_all (by decide) (by decide)) (.round .nil)
  | hasAttr n => exact .cons (by decide) (by decide) (IsAttributeName.neat hp)
  | equals op hlit =>
    exact (Operand.neat hp.1).append (.cons (by decide) (by decide) (hlit.neat hp.2))
  | contains op hlit => exact hcall (.of_all (by decide) (by decide)) hlit hp
  | startsWith op hlit => exact hcall (.of_all (by decide) (by decide)) hlit hp

/-- What is written for predicates is neat, unless there are none. -/
theorem SpellsPredicates.neat {ps : List Predicate} {s : List Char} (h : SpellsPredicates ps s)
    (hps : ∀ p ∈ ps, p.IsWritable) : s = [] ∨ Neat s := by
  induction h with
  | nil => exact .inl rfl
  | @cons p ps s t hp _ ih =>
    rw [List.forall_mem_cons] at hps
    have hs := Neat.square (hp.neat hps.1).enclosed
    rcases ih hps.2 with rfl | ht
    · exact .inr hs
    · have := hs.append ht
      simp at this
      exact .inr this

theorem Test.neat {test : Test} (h : test.IsWritable) : Neat test.spelling := by
  cases test with
  | name n => exact IsElementName.neat h
  | attr n => exact .cons (by decide) (by decide) (IsAttributeName.neat h)
  | text => exact neat_text
  | any => exact .of_all (by decide) (by decide)
  | self => exact .of_all (by decide) (by decide)
  | parent => exact .of_all (by decide) (by decide)

theorem SpellsStep.neat {step : Step} {s : List Char} (h : SpellsStep step s)
    (hstep : step.IsWritable) : Neat s := by
  cases h with
  | mk h =>
    rcases h.neat hstep.2 with rfl | hs
    · rw [List.append_nil]
      exact Test.neat hstep.1
    · exact (Test.neat hstep.1).append hs

end Scrape.XPath
