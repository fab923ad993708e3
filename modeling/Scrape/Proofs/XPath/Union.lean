import Scrape.Proofs.Rule.Padded
import Scrape.Proofs.XPath.Reading

/-!
# XPath — Union, one path beside another

Two texts of one path each, with a bar between them.  The bar is looked for by the scan of rules,
which takes a backslash for an escape and minds the brackets in names, while the reader of a path
does neither.  Where the scan leaves nothing open at the end of the first text, it finds the bar,
and the two paths are read.  Where it leaves something open, the first text goes on, over the bar,
and a path that goes on over a bar is another one (`path?_append_ne`).

Main statement (`parse_union_iff`): the union of two paths is read exactly if the scan of rules
leaves nothing open at the end of the first.
-/

namespace Scrape.XPath

open Scrape.Text (exists_eq_append_trim exists_trimEnd_eq_append_trim isBlank mem_trim_or_isBlank
  trim trimEnd trimStart trim_append trim_append_blank trim_append_of_blank trim_trim)

/-! ### A path that goes on over a bar -/

/-- What goes on over a bar: the first character that is no blank is one. -/
def Barred (t : List Char) : Prop :=
  ∃ blanks u, (∀ c ∈ blanks, isBlank c = true) ∧ t = blanks ++ '|' :: u

section

variable {s t : List Char}

theorem Barred.mem (ht : Barred t) : '|' ∈ t := by
  obtain ⟨blanks, u, -, rfl⟩ := ht
  simp

theorem Barred.trimStart_eq (ht : Barred t) : ∃ u, trimStart t = '|' :: u := by
  obtain ⟨blanks, u, hblanks, rfl⟩ := ht
  refine ⟨u, ?_⟩
  rw [trimStart, List.dropWhile_append_of_pos hblanks]
  exact List.dropWhile_cons_of_neg (by decide)

theorem Barred.trimEnd (ht : Barred t) : Barred (trimEnd t) := by
  obtain ⟨blanks, u, hblanks, rfl⟩ := ht
  obtain ⟨before, hbefore, heq⟩ := exists_trimEnd_eq_append_trim (blanks ++ '|' :: u)
  refine ⟨before, Text.trimEnd u, hbefore, ?_⟩
  rw [heq, trim_append_of_blank hblanks]
  exact congrArg _ (trim_append (s := ['|']) (by decide) (by decide) u)

/-- A text that goes on over a bar still does so when it is trimmed. -/
theorem Barred.exists_trim_append (ht : Barred t) (hne : trim s ≠ []) :
    ∃ t', Barred t' ∧ trim (s ++ t) = trim s ++ t' := by
  obtain ⟨before, after, hbefore, hafter, hs⟩ := exists_eq_append_trim s
  obtain ⟨blanks, u, hblanks, rfl⟩ := ht
  have hbarred : Barred (after ++ (blanks ++ '|' :: u)) :=
    ⟨after ++ blanks, u, List.forall_mem_append.mpr ⟨hafter, hblanks⟩, by simp⟩
  refine ⟨_, hbarred.trimEnd, ?_⟩
  calc trim (s ++ (blanks ++ '|' :: u))
      = trim (before ++ (trim s ++ (after ++ (blanks ++ '|' :: u)))) := by
        rw [← List.append_assoc (trim s), ← List.append_assoc before, ← hs]
    _ = trim s ++ Text.trimEnd (after ++ (blanks ++ '|' :: u)) := by
        rw [trim_append_of_blank hbefore, trim_append (trim_trim s) hne]

/-- What stands in a bracket is read whatever comes after its end. -/
theorem readBracket?_append {st : Scan} {acc inside rest : List Char}
    (h : readBracket? st acc s = some (inside, rest)) (t : List Char) :
    readBracket? st acc (s ++ t) = some (inside, rest ++ t) := by
  induction s generalizing st acc with
  | nil => cases h
  | cons c s ih =>
    rw [readBracket?] at h
    rw [List.cons_append, readBracket?]
    split
    · next hclosed =>
      rw [if_pos hclosed] at h
      obtain ⟨rfl, rfl⟩ := Prod.mk.inj (Option.some.inj h)
      rfl
    · next hopen =>
      rw [if_neg hopen] at h
      exact ih h

/-- After predicates a bar is no part of a step. -/
theorem predicates?_append_eq_none {fuel fuel' : Nat} {ps : List Predicate}
    (h : predicates? fuel s = some ps) (hs : s ≠ []) (ht : Barred t) :
    predicates? fuel' (s ++ t) = none := by
  fun_induction predicates? fuel s generalizing fuel' ps with
  | case1 => exact absurd rfl hs
  | case2 fuel s ih =>
    simp only [Option.bind_eq_bind, Option.bind_eq_some_iff] at h
    obtain ⟨⟨inside, rest⟩, hread, p, hp, ps', hps, -⟩ := h
    cases fuel' with
    | zero => rfl
    | succ fuel' =>
      have hrest : predicates? fuel' (trimStart (rest ++ t)) = none := by
        rw [trimStart, List.dropWhile_append]
        split
        · obtain ⟨u, hu⟩ := ht.trimStart_eq
          rw [trimStart] at hu
          rw [hu, predicates?]
          all_goals simp
        · next hne => exact ih _ hps (by simpa [trimStart] using hne)
      rw [List.cons_append, predicates?, readBracket?_append hread]
      simp [hp, hrest]
  | case3 => cases h

/-- A text that begins as the name of an attribute is read as such. -/
theorem test?_attr (name : List Char) :
    test? ('@' :: name) = some (.attr (String.ofList name)) := by
  unfold test?
  simp

/-- A text with a bar in it is no test, unless it names an attribute. -/
theorem test?_eq_none_of_mem (hbar : '|' ∈ s) (hs : s.head? ≠ some '@') : test? s = none := by
  have hne (fixed : List Char) (hfixed : '|' ∉ fixed) : s ≠ fixed := fun heq => hfixed (heq ▸ hbar)
  have hall : ¬ (s.all fun c => Text.isAlphanumeric c || c = '-' || c = '_' || c = ':') = true := by
    intro hall
    have := List.all_eq_true.mp hall '|' hbar
    revert this
    decide
  unfold test?
  dsimp only
  rw [if_neg (by simp [hne]), if_neg (by simp [hne]), if_neg (by simp [hne]),
    if_neg (by simp [hne])]
  split
  · exact absurd rfl hs
  · simp [hall]

/-- The test of a text is not that of the text with a bar after it. -/
theorem test?_append_ne {test : Test} (h : test? s = some test) (ht : '|' ∈ t) :
    test? (s ++ t) ≠ some test := by
  cases s with
  | nil => cases h
  | cons c s =>
    by_cases hc : c = '@'
    · subst hc
      rw [test?_attr] at h
      rw [List.cons_append, test?_attr, ← h]
      intro heq
      have hnil : t = [] := by simpa [String.ofList_inj] using heq
      rw [hnil] at ht
      cases ht
    · rw [test?_eq_none_of_mem (by simp [ht]) (by simpa using hc)]
      nofun

/-- What stands before the first square bracket of a text. -/
theorem exists_eq_head_append (s : List Char) :
    ∃ head rest, s = head ++ rest ∧ '[' ∉ head ∧ ∀ c ∈ rest.head?, c = '[' := by
  induction s with
  | nil => exact ⟨[], [], rfl, List.not_mem_nil, nofun⟩
  | cons c s ih =>
    by_cases hc : c = '['
    · exact ⟨[], c :: s, rfl, List.not_mem_nil, by simp [hc]⟩
    · obtain ⟨head, rest, rfl, hhead, hrest⟩ := ih
      exact ⟨c :: head, rest, rfl, by simp [hhead, Ne.symm hc], hrest⟩

/-- The bar stands before the first square bracket. -/
theorem Barred.exists_eq_head_append (ht : Barred t) : ∃ head rest, t = head ++ rest ∧ '[' ∉ head ∧
    (∀ c ∈ rest.head?, c = '[') ∧ Barred head := by
  obtain ⟨blanks, u, hblanks, rfl⟩ := ht
  obtain ⟨head, rest, rfl, hhead, hrest⟩ := XPath.exists_eq_head_append u
  refine ⟨blanks ++ '|' :: head, rest, by simp, ?_, hrest, blanks, head, hblanks, rfl⟩
  simp only [List.mem_append, List.mem_cons, hhead, or_false, not_or]
  refine ⟨fun hmem => ?_, by decide⟩
  exact absurd (hblanks _ hmem) (by decide)

/-- The step of a text, by what stands before its first square bracket. -/
theorem step?_append {head rest : List Char} (axis : Axis) (hhead : '[' ∉ head)
    (hrest : ∀ c ∈ rest.head?, c = '[') :
    step? axis (head ++ rest) =
      (test? (if rest.isEmpty then head else trim head)).bind fun test =>
        (predicates? (head ++ rest).length rest).bind fun ps => some ⟨axis, test, ps⟩ := by
  have hspan : (head ++ rest).span (· ≠ '[') = (head, rest) :=
    Text.span_append (fun c hc => decide_eq_true fun heq => hhead (heq ▸ hc)) (by simpa using hrest)
  rw [step?, hspan]
  rfl

/-- A step is not that of its text with a bar after it. -/
theorem step?_append_ne {axis axis' : Axis} {step : Step} (h : step? axis (trim s) = some step)
    (ht : Barred t) : step? axis' (trim (s ++ t)) ≠ some step := by
  have hne : trim s ≠ [] := by
    intro hnil
    rw [hnil] at h
    cases h
  obtain ⟨t', ht', htrim⟩ := ht.exists_trim_append hne
  rw [htrim]
  obtain ⟨head, rest, hs, hhead, hrest⟩ := exists_eq_head_append (trim s)
  rw [hs, step?_append axis hhead hrest] at h
  obtain ⟨test, htest, h⟩ := Option.bind_eq_some_iff.mp h
  obtain ⟨ps, hps, heq⟩ := Option.bind_eq_some_iff.mp h
  cases rest with
  | nil =>
    -- the text is a test alone, and the bar is part of the test
    rw [List.append_nil] at hs
    obtain ⟨head', rest', rfl, hhead', hrest', hbarred⟩ := ht'.exists_eq_head_append
    rw [hs, ← List.append_assoc, step?_append axis' (by simp [hhead, hhead']) hrest']
    intro h'
    obtain ⟨test', htest', h'⟩ := Option.bind_eq_some_iff.mp h'
    obtain ⟨ps', -, heq'⟩ := Option.bind_eq_some_iff.mp h'
    obtain ⟨-, rfl, -⟩ := Step.mk.inj (Option.some.inj (heq'.trans heq.symm))
    replace htest : test? head = some test' := htest
    split at htest'
    · exact test?_append_ne htest hbarred.mem htest'
    · rw [trim_append (hs ▸ trim_trim s) (hs ▸ hne)] at htest'
      exact test?_append_ne htest hbarred.trimEnd.mem htest'
  | cons c r =>
    -- the text has predicates, and the bar comes after them
    rw [hs, List.append_assoc, step?_append axis' hhead (by simpa using hrest),
      predicates?_append_eq_none hps (List.cons_ne_nil c r) ht']
    simp

/-- What is before the next slash is so whatever comes after. -/
theorem splitStep_append {st : Scan} {a b : List Char} (h : splitStep st s = (a, b)) (hb : b ≠ [])
    (t : List Char) : splitStep st (s ++ t) = (a, b ++ t) := by
  induction s generalizing st a b with
  | nil =>
    obtain ⟨-, rfl⟩ := Prod.mk.inj h
    exact absurd rfl hb
  | cons c s ih =>
    rw [splitStep] at h
    rw [List.cons_append, splitStep]
    split
    · next hstop =>
      rw [if_pos hstop] at h
      obtain ⟨rfl, rfl⟩ := Prod.mk.inj h
      rfl
    · next hgo =>
      rw [if_neg hgo] at h
      obtain ⟨rfl, rfl⟩ := Prod.mk.inj h
      have hrest : splitStep (st.step ['[', '('] [']', ')'] c) (s ++ t) = _ := ih rfl hb
      rw [hrest]

/-- Where no slash comes before the end, what comes after goes on. -/
theorem exists_splitStep_append {st : Scan} {a : List Char} (h : splitStep st s = (a, []))
    (t : List Char) : a = s ∧ ∃ st', splitStep st (s ++ t) =
      (s ++ (splitStep st' t).1, (splitStep st' t).2) := by
  induction s generalizing st a with
  | nil =>
    obtain ⟨rfl, -⟩ := Prod.mk.inj h
    exact ⟨rfl, st, rfl⟩
  | cons c s ih =>
    rw [splitStep] at h
    rw [List.cons_append, splitStep]
    split at h
    · cases h
    · next hgo =>
      obtain ⟨rfl, hrest⟩ := Prod.mk.inj h
      obtain ⟨ha, st', hst'⟩ := ih (Prod.ext rfl hrest)
      refine ⟨congrArg _ ha, st', ?_⟩
      rw [if_neg hgo, hst']
      rfl

/-- No bar and no blank before it separates steps. -/
theorem Barred.splitStep (ht : Barred t) (st : Scan) : Barred (splitStep st t).1 := by
  obtain ⟨blanks, u, hblanks, rfl⟩ := ht
  have hgo (st : Scan) (c : Char) (hc : c ≠ '/') (s : List Char) : (XPath.splitStep st (c :: s)).1 =
      c :: (XPath.splitStep (st.step ['[', '('] [']', ')'] c) s).1 := by
    rw [XPath.splitStep, if_neg (by simp [hc])]
  induction blanks generalizing st with
  | nil => exact ⟨[], _, nofun, hgo st '|' (by decide) u⟩
  | cons c blanks ih =>
    rw [List.forall_mem_cons] at hblanks
    have hslash : c ≠ '/' := by
      rintro rfl
      exact absurd hblanks.1 (by decide)
    obtain ⟨blanks', u', hblanks', heq⟩ := ih (st.step ['[', '('] [']', ')'] c) hblanks.2
    refine ⟨c :: blanks', u', List.forall_mem_cons.mpr ⟨hblanks.1, hblanks'⟩, ?_⟩
    rw [List.cons_append, hgo st c hslash, heq, List.cons_append]

theorem readAxis?_slash {isFirst : Bool} (hs : s.head? ≠ some '/') :
    readAxis? isFirst ('/' :: s) = some (.child, s) := by
  rw [readAxis?]
  rintro r rfl
  exact hs rfl

theorem readAxis?_of_head? {isFirst : Bool} (hs : s.head? ≠ some '/') :
    readAxis? isFirst s = if isFirst then some (.child, s) else none := by
  rw [readAxis?]
  · rintro r rfl
    exact hs rfl
  · rintro r rfl
    exact hs rfl

/-- The slashes of a text are those of every text that begins with it, if it is more than
slashes. -/
theorem readAxis?_append {isFirst : Bool} {axis : Axis} {rest : List Char}
    (h : readAxis? isFirst s = some (axis, rest)) (hrest : rest ≠ []) (t : List Char) :
    readAxis? isFirst (s ++ t) = some (axis, rest ++ t) := by
  have hhead {s : List Char} (hne : s ≠ []) (hs : s.head? ≠ some '/') :
      (s ++ t).head? ≠ some '/' := by
    obtain ⟨c, s, rfl⟩ := List.exists_cons_of_ne_nil hne
    exact hs
  by_cases hslash : s.head? = some '/'
  · obtain ⟨s, rfl⟩ := List.head?_eq_some_iff.mp hslash
    by_cases hslash' : s.head? = some '/'
    · obtain ⟨s, rfl⟩ := List.head?_eq_some_iff.mp hslash'
      obtain ⟨rfl, rfl⟩ := Prod.mk.inj (Option.some.inj h)
      rfl
    · rw [readAxis?_slash hslash'] at h
      obtain ⟨rfl, rfl⟩ := Prod.mk.inj (Option.some.inj h)
      exact readAxis?_slash (hhead hrest hslash')
  · rw [readAxis?_of_head? hslash] at h
    split at h
    · next hfirst =>
      obtain ⟨rfl, rfl⟩ := Prod.mk.inj (Option.some.inj h)
      rw [readAxis?_of_head? (hhead hrest hslash), if_pos hfirst]
    · cases h

/-- The steps of a text: the first, and the steps of what comes after it. -/
theorem steps?_succ (fuel : Nat) (acc : List Step) (hs : s ≠ []) : steps? (fuel + 1) acc s =
    (readAxis? acc.isEmpty s).bind fun found =>
      (step? found.1 (trim (splitStep {} found.2).1)).bind fun step =>
        steps? fuel (step :: acc) (splitStep {} found.2).2 := by
  obtain ⟨c, s, rfl⟩ := List.exists_cons_of_ne_nil hs
  rw [steps?]
  · refine Option.bind_congr fun found _ => ?_
    obtain ⟨axis, rest⟩ := found
    dsimp only
    split
    · next hempty =>
      rw [List.isEmpty_iff.mp hempty]
      rfl
    · rfl
  · exact List.cons_ne_nil c s

/-- A text whose steps are read has a first one. -/
theorem exists_of_steps? {fuel : Nat} {acc steps : List Step} (h : steps? fuel acc s = some steps)
    (hs : s ≠ []) : ∃ fuel' axis rest step, fuel = fuel' + 1 ∧
      readAxis? acc.isEmpty s = some (axis, rest) ∧
      step? axis (trim (splitStep {} rest).1) = some step ∧
      steps? fuel' (step :: acc) (splitStep {} rest).2 = some steps := by
  cases fuel with
  | zero =>
    obtain ⟨c, s, rfl⟩ := List.exists_cons_of_ne_nil hs
    cases h
  | succ fuel =>
    rw [steps?_succ fuel acc hs] at h
    obtain ⟨⟨axis, rest⟩, haxis, h⟩ := Option.bind_eq_some_iff.mp h
    obtain ⟨step, hstep, h⟩ := Option.bind_eq_some_iff.mp h
    exact ⟨fuel, axis, rest, step, rfl, haxis, hstep, h⟩

/-- The steps that are read come after those that were. -/
theorem prefix_of_steps? {fuel : Nat} {acc steps : List Step} (h : steps? fuel acc s = some steps) :
    acc.reverse <+: steps := by
  induction fuel generalizing acc s with
  | zero =>
    cases s with
    | nil =>
      obtain rfl := Option.some.inj h
      exact List.prefix_rfl
    | cons c s => cases h
  | succ fuel ih =>
    cases s with
    | nil =>
      obtain rfl := Option.some.inj h
      exact List.prefix_rfl
    | cons c s =>
      obtain ⟨fuel', axis, rest, step, hfuel, -, -, h⟩ := exists_of_steps? h (List.cons_ne_nil c s)
      obtain rfl := Nat.succ.inj hfuel
      exact List.IsPrefix.trans (by simp) (ih h)

/-- **The steps of a text** are not those of the text with a bar after it. -/
theorem steps?_append_ne {fuel fuel' : Nat} {acc steps : List Step}
    (h : steps? fuel acc s = some steps) (hs : s ≠ []) (ht : Barred t) :
    steps? fuel' acc (s ++ t) ≠ some steps := by
  intro h'
  induction fuel generalizing fuel' acc s with
  | zero =>
    obtain ⟨fuel, -, -, -, hfuel, -⟩ := exists_of_steps? h hs
    cases hfuel
  | succ fuel ih =>
    obtain ⟨_, axis, rest, step, hfuel, haxis, hstep, h⟩ := exists_of_steps? h hs
    obtain rfl := Nat.succ.inj hfuel
    obtain ⟨fuel', axis', rest', step', rfl, haxis', hstep', h'⟩ :=
      exists_of_steps? h' (List.append_ne_nil_of_left_ne_nil hs t)
    have hrest : rest ≠ [] := by
      rintro rfl
      cases hstep
    rw [readAxis?_append haxis hrest] at haxis'
    obtain ⟨rfl, rfl⟩ := Prod.mk.inj (Option.some.inj haxis')
    -- the first of the further steps is the same in both
    have hsame : step = step' := by
      have hfirst := prefix_of_steps? h
      have hfirst' := prefix_of_steps? h'
      have := List.prefix_of_prefix_length_le hfirst hfirst' (by simp)
      simpa using this.eq_of_length (by simp)
    subst hsame
    cases hsplit : splitStep {} rest with
    | mk text more =>
      rw [hsplit] at hstep h
      by_cases hmore : more = []
      · subst hmore
        obtain ⟨rfl, st, hgo⟩ := exists_splitStep_append hsplit t
        rw [hgo] at hstep'
        exact step?_append_ne hstep (ht.splitStep st) hstep'
      · rw [splitStep_append hsplit hmore] at h'
        exact ih h hmore h'

/-- **The path of a text** is not that of the text with a bar after it. -/
theorem path?_append_ne {path : Path} (h : path? s = some path) (ht : Barred t) :
    path? (s ++ t) ≠ some path := by
  intro h'
  simp only [path?, List.isEmpty_iff] at h h'
  split at h
  · cases h
  · next hne =>
    obtain ⟨t', ht', htrim⟩ := ht.exists_trim_append hne
    rw [htrim, if_neg (List.append_ne_nil_of_left_ne_nil hne t')] at h'
    obtain ⟨steps, hsteps, rfl⟩ := Option.map_eq_some_iff.mp h
    obtain ⟨steps', hsteps', heq⟩ := Option.map_eq_some_iff.mp h'
    obtain ⟨-, rfl⟩ := Path.mk.inj heq
    exact steps?_append_ne hsteps hne ht' hsteps'

end

/-! ### Unions -/

variable {p q s : List Char} {paths paths' : List Path} {path path' : Path}

theorem mapM_readPath_eq_ok_iff {l : List (List Char)} :
    l.mapM readPath = .ok paths ↔ l.map path? = paths.map some := by
  induction l generalizing paths with
  | nil => cases paths <;> simp [pure, Except.pure]
  | cons p l ih =>
    rw [List.mapM_cons, List.map_cons, readPath]
    cases hp : path? p with
    | none => cases paths <;> simp [bind, Except.bind]
    | some path =>
      have hrest : l.mapM readPath = .ok paths.tail ↔ _ := ih
      cases hl : l.mapM readPath with
      | error e =>
        rw [hl] at hrest
        cases paths <;> simp_all [bind, Except.bind]
      | ok found =>
        rw [hl] at hrest
        cases paths <;> simp_all [bind, Except.bind, pure, Except.pure]

/-- A query that is read has the paths of the texts between the bars. -/
theorem parse_eq_ok_iff :
    Query.parse s = .ok ⟨paths⟩ ↔ (Rule.split [['|']] s).map path? = paths.map some := by
  rw [Query.parse_eq, ← mapM_readPath_eq_ok_iff]
  cases (Rule.split [['|']] s).mapM readPath with
  | error e => simp [Except.bind]
  | ok found => simp [Except.bind]

/-- No text between bars is empty where a query is read. -/
theorem nil_notMem_split (h : Query.parse s = .ok ⟨paths⟩) : [] ∉ Rule.split [['|']] s := by
  intro hmem
  have hnone : path? [] ∈ paths.map some := parse_eq_ok_iff.mp h ▸ List.mem_map_of_mem hmem
  obtain ⟨path, -, hpath⟩ := List.mem_map.mp hnone
  cases hpath

/-- What is left of the pieces of a text are the texts of the paths that are read. -/
theorem map_path?_remains (h : Query.parse s = .ok ⟨paths⟩) {cut : Rule.Cuts}
    (hcut : Rule.Cutting [['|']] s cut) :
    (Rule.remains cut.pieces).map path? = paths.map some := by
  rw [← hcut.split_eq_remains (nil_notMem_split h)]
  exact parse_eq_ok_iff.mp h

theorem blankless_bar : Rule.Blankless [['|']] := by
  simp [Rule.Blankless, isBlank]

theorem separates_bar : ({} : Rule.Scan).separates '|' = true := by
  decide

/-- **A union is read** if the scan of rules leaves nothing open before the bar. -/
theorem parse_union (hp : Query.parse p = .ok ⟨paths⟩) (hq : Query.parse q = .ok ⟨paths'⟩)
    (hclosed : ({} : Rule.Scan).run (p ++ [' ']) = {}) :
    Query.parse (p ++ " | ".toList ++ q) = .ok ⟨paths ++ paths'⟩ := by
  have hspace : ∀ c ∈ [' '], isBlank c = true := List.forall_mem_singleton.mpr (by decide)
  have htrim {s t : List Char} (h : trim s = trim t) :
      Rule.split [['|']] s = Rule.split [['|']] t := by
    rw [← (Rule.split_trim blankless_bar s).2, h, (Rule.split_trim blankless_bar t).2]
  have hbefore : Rule.split [['|']] (p ++ [' ']) = Rule.split [['|']] p :=
    htrim (trim_append_blank hspace p)
  have hafter : Rule.split [['|']] ([' '] ++ q) = Rule.split [['|']] q :=
    htrim (trim_append_of_blank hspace q)
  have htext : p ++ " | ".toList ++ q = p ++ [' '] ++ '|' :: ([' '] ++ q) := by simp
  rw [parse_eq_ok_iff, htext, Rule.split_append hclosed separates_bar, hbefore, hafter,
    List.map_append, List.map_append, parse_eq_ok_iff.mp hp, parse_eq_ok_iff.mp hq]
  · rw [hbefore]
    exact nil_notMem_split hp
  · rw [hafter]
    exact nil_notMem_split hq
theorem path?_trim (s : List Char) : path? (trim s) = path? s := by
  rw [path?, trim_trim, path?]

/-- Where the scan of rules leaves something open, the first text goes on over the bar. -/
theorem whole_bar_of_open {st : Rule.Scan} (hopen : st.step ' ' ≠ {}) :
    Rule.Whole [['|']] [] st [' ', '|'] := by
  refine ⟨?_, ?_, trivial⟩
  · rw [List.cons_append, Rule.separatorFrom?_cons, if_neg (by simp)]
  · rw [List.cons_append, Rule.separatorFrom?_cons,
      if_neg fun h => hopen (Rule.Scan.eq_start_of_separates h.1)]

/-- **The union of two paths is read** exactly if the scan of rules leaves nothing open at the end
of the first text: no literal, as it does where a backslash stands before the closing quote, and no
bracket or quote, as in the name of an attribute. -/
theorem parse_union_iff (hp : Query.parse p = .ok ⟨[path]⟩) (hq : Query.parse q = .ok ⟨[path']⟩) :
    Query.parse (p ++ " | ".toList ++ q) = .ok ⟨[path, path']⟩ ↔
      ({} : Rule.Scan).run (p ++ [' ']) = {} := by
  refine ⟨fun h => ?_, parse_union hp hq⟩
  by_contra hopen
  have hstep : ({} : Rule.Scan).run (p ++ [' ']) = (({} : Rule.Scan).run p).step ' ' := by
    rw [Rule.Scan.run_append]
    rfl
  have hcut := Rule.cuts_eq_iff.mp (rfl : Rule.cuts [['|']] p = _)
  set cut := Rule.cuts [['|']] p
  -- the last piece of the first text goes on over the bar
  obtain ⟨u, cut', hcut', more, hpieces⟩ :=
    (hcut.append_whole separates_bar (whole_bar_of_open (hstep ▸ hopen))).exists_append
      separates_bar (' ' :: q)
  have htext : p ++ " | ".toList ++ q = p ++ [' ', '|'] ++ ' ' :: q := by simp
  rw [htext] at h
  have hlast : trim cut.last ≠ [] := by
    refine hcut.trim_last_ne_nil separates_bar fun hclosed => hopen ?_
    rw [hstep, hclosed]
    rfl
  have hfirst := map_path?_remains hp hcut
  have hboth := map_path?_remains h hcut'
  rw [Rule.Cuts.pieces, Rule.remains_append, Rule.remains_singleton hlast] at hfirst
  have hnone : Rule.remains (cut.ended.map Prod.fst) = [] := by
    simpa using congrArg List.length hfirst
  have hlonger : trim (cut.last ++ [' ', '|'] ++ u) ≠ [] := by
    have hmem : '|' ∈ cut.last ++ [' ', '|'] ++ u := by simp
    exact List.ne_nil_of_mem ((mem_trim_or_isBlank hmem).resolve_right (by decide))
  rw [← hpieces, Rule.remains_append, Rule.remains_append, hnone,
    Rule.remains_singleton hlonger] at hboth
  rw [hnone] at hfirst
  have hread : path? cut.last = some path := by
    simpa [path?_trim] using hfirst
  have hreadLonger : path? (cut.last ++ ([' ', '|'] ++ u)) = some path := by
    have := (List.cons.inj hboth).1
    rwa [path?_trim, List.append_assoc] at this
  exact path?_append_ne hread ⟨[' '], u, List.forall_mem_singleton.mpr (by decide), rfl⟩ hreadLonger

/-- The path `//a[@x='b|c"']`. -/
def barredPath : Path := ⟨true, [⟨.descendant, .name "a", [.equals (.attr "x") "b|c\""]⟩]⟩

/-- The path `//c`. -/
def plainPath : Path := ⟨true, [⟨.descendant, .name "c", []⟩]⟩

/-- A bar and a quote of the other kind in a literal leave nothing open. -/
theorem parse_union_barredPath :
    Query.parse "//a[@x='b|c\"']".toList = .ok ⟨[barredPath]⟩ ∧
      Query.parse "//c".toList = .ok ⟨[plainPath]⟩ ∧
        Query.parse "//a[@x='b|c\"'] | //c".toList = .ok ⟨[barredPath, plainPath]⟩ := by
  have hp : Query.parse "//a[@x='b|c\"']".toList = .ok ⟨[barredPath]⟩ := by rfl
  have hq : Query.parse "//c".toList = .ok ⟨[plainPath]⟩ := by rfl
  exact ⟨hp, hq, (parse_union_iff hp hq).mpr (by decide)⟩

/-- The path `//a[@x='b\']`. -/
def escapedPath : Path := ⟨true, [⟨.descendant, .name "a", [.equals (.attr "x") "b\\"]⟩]⟩

/-- After a backslash the scan of rules does not see the quote that closes the literal, so that of
two texts, each of one path, the union is read as one text, and is no path. -/
theorem union_of_escapedPath_not_read :
    Query.parse "//a[@x='b\\']".toList = .ok ⟨[escapedPath]⟩ ∧
      Query.parse "//c".toList = .ok ⟨[plainPath]⟩ ∧
        Query.parse "//a[@x='b\\'] | //c".toList = .error ⟨"//a[@x='b\\'] | //c".toList⟩ :=
  ⟨by rfl, by rfl, by rfl⟩

end Scrape.XPath
