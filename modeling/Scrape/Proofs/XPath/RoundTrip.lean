import Scrape.Proofs.XPath.Spelling
import Scrape.Proofs.XPath.Union

/-!
# XPath — Round trip

A text that is written for a query is read as this query.  Each reader takes what is written for its
part and leaves what comes after it; the scans pass over what is written for a step, so that the
slashes, brackets and bars that they find are those between the parts.

Main statement (`parse_of_spells`): reading undoes writing.
-/

namespace Scrape.XPath

open Scrape.Text (after? after?_append decimal isDigit span_append trim trimStart trim_of_forall)

/-! ### Predicates -/

section

variable {v : String} {lit s : List Char} {op : Operand} {p : Predicate} {ps : List Predicate}

theorem SpellsLiteral.readLiteral?_append (h : SpellsLiteral v lit) (r : List Char) :
    readLiteral? (lit ++ r) = some (v.toList, r) := by
  cases h with
  | @mk q hq hv =>
    have hspan : (v.toList ++ q :: r).span (· ≠ q) = (v.toList, q :: r) :=
      span_append (fun c hc => decide_eq_true fun heq => hv (heq ▸ hc)) (by simp)
    rw [List.cons_append, List.append_assoc, List.singleton_append, readLiteral?, if_pos (by simpa),
      hspan]

/-- An operand is read up to the first character that is part of no name. -/
theorem Operand.readOperand?_append (hop : op.IsWritable) {r : List Char}
    (hr : ∀ c ∈ r.head?, isNameChar c = false) :
    readOperand? (op.spelling ++ r) = some (op, r) := by
  cases op with
  | attr n =>
    have hspan : (n.toList ++ r).span isNameChar = (n.toList, r) := span_append hop.2 hr
    have hne : n.toList ≠ [] := by simpa using hop.1
    change readOperand? ('@' :: (n.toList ++ r)) = _
    rw [readOperand?, hspan]
    simp [hne]
  | ownText => rfl
  | value => rfl

/-- Nothing is trimmed at the start of a neat text. -/
theorem Neat.trimStart_append (hs : Neat s) (r : List Char) : trimStart (s ++ r) = s ++ r := by
  have hstart : trimStart s = s := by rw [← hs.trim_eq, Text.trimStart_trim]
  obtain ⟨c, t, rfl⟩ := List.exists_cons_of_ne_nil hs.ne_nil
  have hc : ¬ Text.isBlank c = true := List.dropWhile_eq_self_iff.mp hstart (by simp)
  exact List.dropWhile_cons_of_neg hc

/-- What is read in the brackets of a function. -/
theorem readArguments?_spelled (hop : op.IsWritable) (h : SpellsLiteral v lit)
    (hlit : IsLiteral v) :
    readArguments? (op.spelling ++ ',' :: lit ++ [')']) = some (op, v) := by
  have hread :
      readOperand? (op.spelling ++ ',' :: (lit ++ [')'])) = some (op, ',' :: (lit ++ [')'])) :=
    Operand.readOperand?_append hop (by rintro _ ⟨⟩; decide)
  have hcomma : trimStart (',' :: (lit ++ [')'])) = ',' :: (lit ++ [')']) :=
    List.dropWhile_cons_of_neg (by decide)
  have hclose : trimStart [')'] = [')'] := by decide
  rw [List.append_assoc, List.cons_append, readArguments?, (Operand.neat hop).trimStart_append,
    hread]
  simp only [hcomma, (h.neat hlit).trimStart_append, h.readLiteral?_append]
  rw [if_pos hclose, String.ofList_toList]

/-- A literal after an equals sign is all there is. -/
theorem equalTo?_spelled (h : SpellsLiteral v lit) (hlit : IsLiteral v) :
    equalTo? ('=' :: lit) = some v := by
  have hequals : trimStart ('=' :: lit) = '=' :: lit := List.dropWhile_cons_of_neg (by decide)
  have hread := h.readLiteral?_append []
  have hstart := (h.neat hlit).trimStart_append []
  rw [List.append_nil] at hread hstart
  rw [equalTo?, hequals]
  simp only [hstart, hread, String.ofList_toList]

theorem readCount?_decimal {n : Nat} (hn : n < 0x10000000000000000) :
    Text.readCount? (decimal n) = some n := by
  have hne : decimal n ≠ [] := Nat.toDigits_ne_nil
  have hread : Text.readNat? 10 (decimal n) = some n := by
    rw [Text.readNat?_of_digits hne fun c hc => isDigit_of_mem_decimal hc]
    exact congrArg some Nat.ofDigitChars_ten_toDigits
  have hplus : '+' ∉ decimal n := fun hmem => absurd (isDigit_of_mem_decimal hmem) (by decide)
  unfold Text.readCount?
  split
  · next r heq => exact absurd (heq ▸ List.mem_cons_self) hplus
  · simp [hread, hn]

theorem isDecimalDigit_of_isDigit {c : Char} (h : isDigit c = true) :
    Text.isDecimalDigit c = true := by
  have hascii : Text.isAscii c = true := by
    simp [isDigit, Char.le_def, UInt32.le_iff_toNat_le] at h
    simp [Text.isAscii]
    omega
  rw [Text.isDecimalDigit, if_pos hascii, h]

theorem not_all_isDecimalDigit {c : Char} (hc : Text.isDecimalDigit c = false) (r : List Char) :
    ¬ (!(c :: r).isEmpty && (c :: r).all Text.isDecimalDigit) = true := by
  simp [hc]

/-- What begins with an operand has a comparison after it, or is the name of an attribute alone. -/
theorem predicate?_operand {r : List Char} (htrim : trim (op.spelling ++ r) = op.spelling ++ r) :
    predicate? (op.spelling ++ r) =
      match readOperand? (op.spelling ++ r) with
      | some (.attr n, []) => some (.hasAttr n)
      | some (op, r)       => (equalTo? r).map (.equals op)
      | none               => none := by
  have hdigits :
      ¬ (!(op.spelling ++ r).isEmpty && (op.spelling ++ r).all Text.isDecimalDigit) = true := by
    cases op <;> exact not_all_isDecimalDigit (by decide) _
  have hlast : op.spelling ++ r ≠ "last()".toList := by
    intro heq
    cases op with
    | attr n => cases heq
    | ownText => simp [Operand.spelling_ownText] at heq
    | value => cases heq
  have hcontains : after? "contains(".toList (op.spelling ++ r) = none := by
    cases op <;> rfl
  have hstarts : after? "starts-with(".toList (op.spelling ++ r) = none := by
    cases op <;> rfl
  rw [predicate?, htrim]
  refine (if_neg hdigits).trans ((if_neg hlast).trans ?_)
  split
  · next hfound => cases hcontains.symm.trans hfound
  · next hfound => cases hstarts.symm.trans hfound
  · rfl

theorem predicate?_contains {r : List Char}
    (htrim : trim ("contains(".toList ++ r) = "contains(".toList ++ r) :
    predicate? ("contains(".toList ++ r) =
      (readArguments? r).map fun (op, v) => .contains op v := by
  have hdigits := not_all_isDecimalDigit (c := 'c') (by decide) ("ontains(".toList ++ r)
  rw [predicate?, htrim]
  refine (if_neg hdigits).trans ?_
  rw [after?_append, if_neg (by simp)]

theorem predicate?_startsWith {r : List Char}
    (htrim : trim ("starts-with(".toList ++ r) = "starts-with(".toList ++ r) :
    predicate? ("starts-with(".toList ++ r) =
      (readArguments? r).map fun (op, v) => .startsWith op v := by
  have hdigits := not_all_isDecimalDigit (c := 's') (by decide) ("tarts-with(".toList ++ r)
  have hcontains : after? "contains(".toList ("starts-with(".toList ++ r) = none := rfl
  rw [predicate?, htrim]
  refine (if_neg hdigits).trans ?_
  rw [hcontains, after?_append, if_neg (by simp)]

/-- What is written for a predicate is read as the predicate. -/
theorem SpellsPredicate.predicate?_eq (h : SpellsPredicate p s) (hp : p.IsWritable) :
    predicate? s = some p := by
  have htrim := (h.neat hp).trim_eq
  cases h with
  | position n =>
    have hne : decimal n ≠ [] := Nat.toDigits_ne_nil
    have hdigits : (decimal n).all Text.isDecimalDigit = true :=
      List.all_eq_true.mpr fun c hc => isDecimalDigit_of_isDigit (isDigit_of_mem_decimal hc)
    rw [predicate?, htrim]
    dsimp only
    rw [if_pos (by simp [hdigits, hne]), readCount?_decimal hp.2]
    simp [hp.1]
  | last => rfl
  | hasAttr n =>
    have hop : Operand.IsWritable (.attr n) := hp
    have hread := Operand.readOperand?_append hop (r := []) (by simp)
    have htext : '@' :: n.toList = Operand.spelling (.attr n) ++ [] := (List.append_nil _).symm
    rw [htext] at htrim ⊢
    rw [predicate?_operand htrim, hread]
  | @equals v lit op hlit =>
    have hread : readOperand? (op.spelling ++ '=' :: lit) = some (op, '=' :: lit) :=
      Operand.readOperand?_append hp.1 (by rintro _ ⟨⟩; decide)
    rw [predicate?_operand htrim, hread]
    simp [equalTo?_spelled hlit hp.2]
  | contains op hlit =>
    exact (predicate?_contains htrim).trans
      (congrArg (Option.map _) (readArguments?_spelled hp.1 hlit hp.2))
  | startsWith op hlit =>
    exact (predicate?_startsWith htrim).trans
      (congrArg (Option.map _) (readArguments?_spelled hp.1 hlit hp.2))

theorem SpellsPredicates.head?_eq (h : SpellsPredicates ps s) : ∀ c ∈ s.head?, c = '[' := by
  cases h with
  | nil => nofun
  | cons _ _ =>
    rintro _ ⟨⟩
    rfl

/-- What is written for predicates is read as the predicates. -/
theorem SpellsPredicates.predicates?_eq (h : SpellsPredicates ps s) (hps : ∀ p ∈ ps, p.IsWritable)
    {fuel : Nat} (hfuel : s.length ≤ fuel) : predicates? fuel s = some ps := by
  induction h generalizing fuel with
  | nil => cases fuel <;> rfl
  | @cons p ps s t hp hrest ih =>
    rw [List.forall_mem_cons] at hps
    cases fuel with
    | zero => simp at hfuel
    | succ fuel =>
      have hread : readBracket? { depth := 1 } [] (s ++ ']' :: t) = some (s, t) := by
        rw [(hp.neat hps.1).enclosed.readBracket?_append]
        simp [readBracket?, Scan.step]
      have ht : trimStart t = t := by
        rcases hrest.neat hps.2 with rfl | ht
        · rfl
        · simpa using ht.trimStart_append []
      simp only [List.length_cons, List.length_append] at hfuel
      have hreadRest : predicates? fuel t = some ps := ih hps.2 (by omega)
      rw [predicates?, hread]
      simp [hp.predicate?_eq hps.1, ht, hreadRest]

end

/-! ### Steps -/

section

variable {test : Test} {step : Step} {steps acc : List Step} {fuel : Nat} {s t : List Char}

/-- What is written for a test is read as the test. -/
theorem test?_spelling (h : test.IsWritable) : test? test.spelling = some test := by
  cases test with
  | name n =>
    have hchars : ∀ c ∈ n.toList,
        (Text.isAlphanumeric c || c = '-' || c = '_' || c = ':') = true := fun c hc => by
      simpa [or_assoc] using h.2.1 c hc
    -- a name is none of the fixed tests, and does not begin like the name of an attribute
    have hne (c : Char) (hc : (Text.isAlphanumeric c || c = '-' || c = '_' || c = ':') = false)
        {head : List Char} (hmem : c ∈ head) : n.toList ≠ head := fun heq => by
      have := hchars c (heq ▸ hmem)
      rw [hc] at this
      cases this
    change test? n.toList = some (.name n)
    unfold test?
    dsimp only
    rw [if_neg (by simp [hne '*' (by decide) (List.mem_singleton_self '*'), hne '(' (by decide)]),
      if_neg (hne '.' (by decide) (by decide)), if_neg (hne '.' (by decide) (by decide)),
      if_neg (hne '(' (by decide) (by decide))]
    split
    · next heq => exact absurd heq (hne '@' (by decide) List.mem_cons_self)
    · have hempty : n.toList ≠ [] := by simpa using h.1
      rw [if_pos (by simp [hempty, List.all_eq_true.mpr hchars]), h.2.2, String.ofList_toList]
  | any => rfl
  | self => rfl
  | parent => rfl
  | text => rfl
  | attr n =>
    change test? ('@' :: n.toList) = _
    rw [test?_attr, String.ofList_toList]

theorem square_notMem_spelling (h : test.IsWritable) : '[' ∉ test.spelling := by
  have hsign : '[' ∈ signs := by decide
  cases test with
  | name n => exact fun hmem => (IsElementName.forall_mem h _ hmem).2 hsign
  | attr n =>
    intro hmem
    rcases List.mem_cons.mp hmem with heq | hmem
    · cases heq
    · exact (IsAttributeName.forall_mem h _ hmem).2 hsign
  | any => decide
  | self => decide
  | parent => decide
  | text => decide

/-- What is written for a step is read as the step. -/
theorem SpellsStep.step?_eq (h : SpellsStep step s) (hstep : step.IsWritable) :
    step? step.axis s = some step := by
  cases h with
  | @mk preds hpreds =>
    have htest : (if preds.isEmpty then step.test.spelling else trim step.test.spelling) =
        step.test.spelling := by
      rw [(Test.neat hstep.1).trim_eq, ite_self]
    rw [step?_append step.axis (square_notMem_spelling hstep.1) hpreds.head?_eq, htest,
      test?_spelling hstep.1, Option.bind_some, hpreds.predicates?_eq hstep.2 (by simp)]
    rfl

/-- No slash stands at the start of an enclosed text. -/
theorem Enclosed.head?_ne_slash (h : Enclosed s) : s.head? ≠ some '/' := by
  cases h with
  | nil => nofun
  | plain hc _ =>
    rintro ⟨⟩
    exact hc (by decide)
  | literal hq _ _ => rcases hq with rfl | rfl <;> nofun
  | round _ _ => nofun
  | square _ _ => nofun

/-- No slash stands at the start of a text that begins with a step. -/
theorem Neat.head?_append_ne_slash (hs : Neat s) (t : List Char) : (s ++ t).head? ≠ some '/' := by
  rw [List.head?_append_of_ne_nil _ hs.ne_nil]
  exact hs.enclosed.head?_ne_slash

/-- The steps that are written after a step begin with a slash. -/
theorem SpellsSteps.splitStep_eq (h : SpellsSteps steps s) : splitStep {} s = ([], s) := by
  cases h with
  | nil => rfl
  | @cons step _ _ _ _ _ => cases step.axis <;> rfl

/-- The step at the start of a text is read alone. -/
theorem SpellsStep.steps?_eq (h : SpellsStep step s) (hstep : step.IsWritable)
    (hrest : SpellsSteps steps t) {text : List Char} (htext : text ≠ [])
    (haxis : readAxis? acc.isEmpty text = some (step.axis, s ++ t)) :
    steps? (fuel + 1) acc text = steps? fuel (step :: acc) t := by
  have hneat := h.neat hstep
  rw [steps?_succ fuel acc htext, haxis, Option.bind_some]
  dsimp only
  rw [hneat.enclosed.splitStep_append, hrest.splitStep_eq, List.append_nil, hneat.trim_eq,
    h.step?_eq hstep]
  rfl

/-- What is written for steps is read as the steps. -/
theorem SpellsSteps.steps?_eq (h : SpellsSteps steps s) (hsteps : ∀ step ∈ steps, step.IsWritable)
    (hfuel : s.length ≤ fuel) : steps? fuel acc s = some (acc.reverse ++ steps) := by
  induction h generalizing fuel acc with
  | nil => cases fuel <;> simp [steps?]
  | @cons step steps s t h hrest ih =>
    rw [List.forall_mem_cons] at hsteps
    have hneat := h.neat hsteps.1
    have haxis (isFirst : Bool) :
        readAxis? isFirst (step.axis.spelling ++ (s ++ t)) = some (step.axis, s ++ t) := by
      cases step.axis with
      | child => exact readAxis?_slash (hneat.head?_append_ne_slash t)
      | descendant => rfl
    have htext : step.axis.spelling ++ (s ++ t) ≠ [] := by
      simp [hneat.ne_nil]
    cases fuel with
    | zero => exact absurd hfuel (by simp [hneat.ne_nil])
    | succ fuel =>
      have hrestFuel : t.length ≤ fuel := by
        have hpos := List.length_pos_iff.mpr hneat.ne_nil
        simp only [List.length_append] at hfuel
        omega
      rw [h.steps?_eq hsteps.1 hrest htext (haxis _), ih hsteps.2 hrestFuel]
      simp

theorem SpellsSteps.trim_eq (h : SpellsSteps steps s) (hsteps : ∀ step ∈ steps, step.IsWritable) :
    trim s = s := by
  induction h with
  | nil => rfl
  | @cons step steps s t h hrest ih =>
    rw [List.forall_mem_cons] at hsteps
    have hneat := h.neat hsteps.1
    have hslashes : trim step.axis.spelling = step.axis.spelling := by
      cases step.axis <;> decide
    have hne : step.axis.spelling ≠ [] := by
      cases step.axis <;> decide
    exact trim_append_eq hslashes hne (trim_append_eq hneat.trim_eq hneat.ne_nil (ih hsteps.2))

/-- No bar in what is written for steps separates paths. -/
theorem SpellsSteps.passes (h : SpellsSteps steps s) (hsteps : ∀ step ∈ steps, step.IsWritable) :
    barScanner.Passes {} s {} := by
  induction h with
  | nil => rfl
  | @cons step steps s t h hrest ih =>
    rw [List.forall_mem_cons] at hsteps
    have hslash : barScanner.Leads {} '/' {} := ⟨by simp [barScanner], rfl⟩
    have hslashes : barScanner.Passes {} step.axis.spelling {} :=
      Scanner.passes_of_forall fun c hc => by
        obtain rfl : c = '/' := by cases haxis : step.axis <;> simpa [haxis, Axis.spelling] using hc
        exact hslash
    have htext := (h.neat hsteps.1).enclosed.passes heeds_barScanner 0
    exact hslashes.append (htext.append (ih hsteps.2))

end

/-! ### Queries -/

section

variable {path : Path} {q : Query} {s : List Char}

/-- What is written for a path is read as the path, and is one text for the scan of the bars. -/
theorem SpellsPath.path?_eq (h : SpellsPath path s) (hpath : path.IsWritable) :
    path? s = some path := by
  obtain ⟨hne, hsteps, -⟩ := hpath
  cases h with
  | @absolute steps _ h =>
    have htrim := h.trim_eq hsteps
    have hread : steps? s.length [] s = some steps := h.steps?_eq hsteps (Nat.le_refl _)
    have hhead : s.head? = some '/' := by
      cases h with
      | nil => exact absurd rfl hne
      | @cons step _ _ _ _ _ => cases haxis : step.axis <;> simp [Axis.spelling]
    have hempty : s ≠ [] := by
      rintro rfl
      cases hhead
    simp [path?, htrim, hempty, hread, hhead]
  | @relative step steps s t haxis h hrest =>
    rw [List.forall_mem_cons] at hsteps
    have hneat := h.neat hsteps.1
    have htrim := trim_append_eq hneat.trim_eq hneat.ne_nil (hrest.trim_eq hsteps.2)
    have hhead := hneat.head?_append_ne_slash t
    have hempty := List.append_ne_nil_of_left_ne_nil hneat.ne_nil t
    have hfirst : readAxis? true (s ++ t) = some (step.axis, s ++ t) := by
      rw [readAxis?_of_head? hhead, if_pos rfl, haxis]
    obtain ⟨fuel, hfuel⟩ := Nat.exists_eq_succ_of_ne_zero (List.length_pos_iff.mpr hempty).ne'
    have hle : t.length ≤ fuel := by
      have hpos := List.length_pos_iff.mpr hneat.ne_nil
      rw [List.length_append] at hfuel
      omega
    have hread : steps? (s ++ t).length [] (s ++ t) = some (step :: steps) :=
      calc steps? (s ++ t).length [] (s ++ t)
          = steps? (fuel + 1) [] (s ++ t) := by rw [hfuel]
        _ = steps? fuel [step] t := h.steps?_eq hsteps.1 hrest hempty hfirst
        _ = some (step :: steps) := hrest.steps?_eq hsteps.2 hle
    simp only [path?, htrim, hread, List.isEmpty_iff, if_neg hempty, hhead, decide_false,
      Option.map_some]

theorem SpellsPath.passes (h : SpellsPath path s) (hpath : path.IsWritable) :
    barScanner.Passes {} s {} := by
  obtain ⟨-, hsteps, -⟩ := hpath
  cases h with
  | absolute h => exact h.passes hsteps
  | relative _ h hrest =>
    rw [List.forall_mem_cons] at hsteps
    exact ((h.neat hsteps.1).enclosed.passes heeds_barScanner 0).append (hrest.passes hsteps.2)

/-- What is written for a path is read as a query of this path alone. -/
theorem SpellsPath.parse_eq (h : SpellsPath path s) (hpath : path.IsWritable) :
    Query.parse s = .ok ⟨[path]⟩ := by
  obtain ⟨-, hwhole⟩ := run_eq_and_whole_of_passes (h.passes hpath)
  rw [parse_eq_ok_iff, Rule.split_of_whole hwhole]
  simp [path?_trim, h.path?_eq hpath]

/-- **Reading undoes writing.**  For every query that can be written there is a text, and each text
that is written for it, in quotes of either kind, is read as this query. -/
theorem parse_of_spells (hq : q.IsWritable) :
    (∃ s, SpellsQuery q s) ∧ ∀ s, SpellsQuery q s → Query.parse s = .ok q := by
  refine ⟨exists_spellsQuery hq, ?_⟩
  rintro _ ⟨htexts⟩
  obtain ⟨paths⟩ := q
  obtain ⟨hne, hpaths⟩ := hq
  dsimp only at htexts hne hpaths
  induction htexts with
  | nil => exact absurd rfl hne
  | @cons path text paths texts h hrest ih =>
    rw [List.forall_mem_cons] at hpaths
    have hparse := h.parse_eq hpaths.1
    cases hrest with
    | nil => simpa using hparse
    | cons h' hrest' =>
      rw [List.intercalate_cons_cons]
      refine parse_union hparse (ih (List.cons_ne_nil _ _) hpaths.2) ?_
      rw [Rule.Scan.run_append, (run_eq_and_whole_of_passes (h.passes hpaths.1)).1]
      rfl

/-- The query `//div[contains(.,"it's | / [")]/a[2][last()]/@href | p[@x='a"|b']/text()`. -/
def signedQuery : Query :=
  ⟨[⟨true, [⟨.descendant, .name "div", [.contains .value "it's | / ["]⟩,
      ⟨.child, .name "a", [.position 2, .last]⟩, ⟨.child, .attr "href", []⟩]⟩,
    ⟨false, [⟨.child, .name "p", [.equals (.attr "x") "a\"|b"]⟩, ⟨.child, .text, []⟩]⟩]⟩

/-- Its text. -/
def signedText : List Char :=
  "//div[contains(.,\"it's | / [\")]/a[2][last()]/@href | p[@x='a\"|b']/text()".toList

theorem spells_signedQuery : SpellsQuery signedQuery signedText := by
  have hlit : SpellsLiteral "it's | / [" "\"it's | / [\"".toList := .mk (.inr rfl) (by decide)
  have hlit' : SpellsLiteral "a\"|b" "'a\"|b'".toList := .mk (.inl rfl) (by decide)
  have hdiv : SpellsStep ⟨.descendant, .name "div", [.contains .value "it's | / ["]⟩ _ :=
    .mk (.cons (.contains .value hlit) .nil)
  have hlink : SpellsStep ⟨.child, .name "a", [.position 2, .last]⟩ _ :=
    .mk (.cons (.position 2) (.cons .last .nil))
  have hhref : SpellsStep ⟨.child, .attr "href", []⟩ _ := .mk .nil
  have hp : SpellsStep ⟨.child, .name "p", [.equals (.attr "x") "a\"|b"]⟩ _ :=
    .mk (.cons (.equals (.attr "x") hlit') .nil)
  have htext : SpellsStep ⟨.child, .text, []⟩ _ := .mk .nil
  have hfirst : SpellsPath _ _ := .absolute (.cons hdiv (.cons hlink (.cons hhref .nil)))
  have hsecond : SpellsPath _ _ := .relative rfl hp (.cons htext .nil)
  exact .mk (.cons hfirst (.cons hsecond .nil))

/-- Bars, slashes, brackets and quotes in literals come back as they were written. -/
theorem parse_signedText : signedQuery.IsWritable ∧ Query.parse signedText = .ok signedQuery := by
  have hwritable : signedQuery.IsWritable := by decide
  exact ⟨hwritable, (parse_of_spells hwritable).2 _ spells_signedQuery⟩

end

end Scrape.XPath
