import Scrape.Chain.Step
import Scrape.Proofs.Css.Unfinished
import Scrape.Proofs.Rule.Suffix

/-!
# Chain — Filter

A name with an index set in brackets.  The step picks by the set from what the name selects
(`selectStep_filteredStep`), with whatever blanks the set is written, but for one case.  An exclusion
with a blank in it makes the step a chain of words, of which the first has a bracket that is not
closed; so the step selects nothing (`selectStep_filteredStep_of_isSpacedExclusion`).
-/

namespace Scrape.Chain

open Scrape.Rule (IndexSet splitIndexSuffix splitIndexSuffix_bracketed splitIndexSuffix_marked)
open Scrape.Text (after?_append isBlank splitOn splitOn_of_absent trim trimEnd trim_cons_append
  trim_of_forall words words_append_cons)

/-- A name holds nothing but letters, digits, hyphens and the like. -/
def IsName (name : List Char) : Prop :=
  ∀ c ∈ name, Css.continuesName c = true ∧ isBlank c = false

instance (name : List Char) : Decidable (IsName name) :=
  List.decidableBAll (fun c => Css.continuesName c = true ∧ isBlank c = false) name

/-- The step to what has a name. -/
def nameStep (name : List Char) : List Char := "tag.".toList ++ name

theorem nameStep_eq (name : List Char) : nameStep name = "tag.".toList ++ name := rfl

/-- The step to what a set in brackets picks from what has a name. -/
def filteredStep (name content : List Char) : List Char :=
  nameStep (name ++ '[' :: (content ++ [']']))

/-- An exclusion mark and a blank stand in the text. -/
def IsSpacedExclusion (s : List Char) : Prop := '!' ∈ s ∧ ∃ b ∈ s, isBlank b = true

instance (s : List Char) : Decidable (IsSpacedExclusion s) :=
  decidable_of_iff ('!' ∈ s ∧ s.any isBlank = true) (and_congr_right fun _ => List.any_eq_true)

/-- No key of a value of JSON begins with the name and a bracket. -/
def NothingOpened (name : List Char) : Node → Prop
  | .element _ => True
  | .json v _  => ∀ s, v.field? (String.ofList (name ++ '[' :: s)) = none

variable {n : Node} {name content step s u : List Char} {d : Char} {set : IndexSet}
  {set? : Option IndexSet}

/-! ### Characters of steps -/

theorem IsName.not_mem (h : IsName name) (hd : Css.continuesName d = false) : d ∉ name := by
  intro hmem
  rw [(h d hmem).1] at hd
  cases hd

theorem IsName.isBlank (h : IsName name) : ∀ c ∈ name, isBlank c = false := fun c hc => (h c hc).2

theorem IsName.isBlank_opened (h : IsName name) (hu : ∀ c ∈ u, Text.isBlank c = false) :
    ∀ c ∈ name ++ '[' :: u, Text.isBlank c = false := by
  rw [List.forall_mem_append, List.forall_mem_cons]
  exact ⟨h.isBlank, by decide, hu⟩

theorem isBlank_tag : ∀ c ∈ "tag.".toList, isBlank c = false := by
  simp [isBlank]

theorem isBlank_nameStep (h : ∀ c ∈ s, isBlank c = false) :
    ∀ c ∈ nameStep s, isBlank c = false := by
  rw [nameStep_eq, List.forall_mem_append]
  exact ⟨isBlank_tag, h⟩

theorem trim_nameStep (h : ∀ c ∈ s, isBlank c = false) : trim (nameStep s) = nameStep s :=
  trim_of_forall (isBlank_nameStep h)

theorem trim_filteredStep (name content : List Char) :
    trim (filteredStep name content) = filteredStep name content := by
  have heq : filteredStep name content =
      't' :: ("ag.".toList ++ name ++ '[' :: content ++ [']']) := by
    simp [filteredStep, nameStep_eq]
  rw [heq, trim_cons_append (by decide) (by decide)]

theorem mem_nameStep_iff (hd : d ∉ "tag.".toList) : d ∈ nameStep s ↔ d ∈ s := by
  rw [nameStep_eq, List.mem_append]
  exact or_iff_right hd

/-- What makes an exclusion spaced stands in its brackets. -/
theorem IsName.isSpacedExclusion_filteredStep_iff (h : IsName name) :
    IsSpacedExclusion (filteredStep name content) ↔ IsSpacedExclusion content := by
  have hmark : '!' ∈ filteredStep name content ↔ '!' ∈ content := by
    rw [filteredStep, mem_nameStep_iff (by decide)]
    simp [h.not_mem (d := '!') (by decide)]
  have hblank {b : Char} (hb : Text.isBlank b = true) :
      b ∈ filteredStep name content ↔ b ∈ content := by
    have hne {c : Char} (hc : Text.isBlank c = false) : b ≠ c := by
      rintro rfl
      rw [hb] at hc
      cases hc
    have hname : b ∉ name := fun hmem => hne (h.isBlank b hmem) rfl
    have htag : b ∉ "tag.".toList := fun hmem => hne (isBlank_tag b hmem) rfl
    rw [filteredStep, mem_nameStep_iff htag]
    simp [hname, hne (c := '[') (by decide), hne (c := ']') (by decide)]
  rw [IsSpacedExclusion, IsSpacedExclusion, hmark]
  exact and_congr_right fun _ => exists_congr fun b => and_congr_left hblank

/-! ### Selecting -/

theorem picked_nil (set? : Option IndexSet) : picked set? [] = [] := by
  cases set? with
  | none => rfl
  | some set => simp [picked, IndexSet.apply]

theorem follow_nil (select : Node → List Char → List Node) (steps : List (List Char)) :
    follow select [] steps = [] := by
  induction steps with
  | nil => rfl
  | cons step steps ih => exact ih

theorem selectOne_of_nameStep (htrim : trim step = step) (hs : ∀ c ∈ s, isBlank c = false)
    (h : splitIndexSuffix step = (nameStep s, set?)) :
    selectOne n step = picked set? (n.named s) := by
  rw [selectOne, htrim, h]
  dsimp only [nameStep]
  rw [after?_append]
  dsimp only
  rw [trim_of_forall hs]

theorem selectStep_of_not_isSpacedExclusion (htrim : trim step = step)
    (h : ¬ IsSpacedExclusion step) : selectStep n step = selectOne n step := by
  unfold selectStep
  rw [htrim]
  exact if_neg (by simpa [IsSpacedExclusion] using h)

theorem selectStep_of_isSpacedExclusion (htrim : trim step = step) (h : IsSpacedExclusion step) :
    selectStep n step = follow selectOne [n] (words step) := by
  unfold selectStep
  rw [htrim]
  exact if_pos (by simpa [IsSpacedExclusion] using h)

/-- The characters that end a step, or that part it. -/
def marks : List Char := ['.', '!', ':', ']']

/-- Off a step to what has no mark in its name, and is no integer, nothing is split. -/
theorem splitIndexSuffix_nameStep (hs : ∀ c ∈ s, isBlank c = false)
    (hmarks : ∀ c ∈ s, c ∉ marks) (hinteger : IndexSet.isInteger s = false) :
    splitIndexSuffix (nameStep s) = (nameStep s, none) := by
  have htrim : trim ("tag".toList ++ '.' :: s) = "tag".toList ++ '.' :: s := trim_nameStep hs
  have hlast : ("tag".toList ++ '.' :: s).getLast? ≠ some ']' := fun hlast =>
    hmarks ']' ((mem_nameStep_iff (by decide)).mp (List.mem_of_getLast? hlast)) (by decide)
  have hpieces : (splitOn [':'] s).all IndexSet.isInteger = false := by
    have habsent : ¬ [':'] <:+: s := fun hin =>
      hmarks ':' (hin.mem List.mem_cons_self) (by decide)
    rw [splitOn_of_absent habsent, List.all_cons, hinteger, Bool.false_and]
  have hlist : ∀ c ∈ s, c ≠ '.' ∧ c ≠ '!' := by
    refine fun c hc => ⟨?_, ?_⟩
    · rintro rfl
      exact hmarks '.' hc (by decide)
    · rintro rfl
      exact hmarks '!' hc (by decide)
  rcases splitIndexSuffix_marked htrim hlast (.inl rfl) hlist with heq | ⟨hall, -⟩
  · exact heq
  · rw [hpieces] at hall
    cases hall

theorem IsName.not_mem_marks (h : IsName name) : ∀ c ∈ name, c ∉ marks := by
  intro c hc hmem
  have hall : ∀ c ∈ marks, Css.continuesName c = false := by
    simp only [marks, List.forall_mem_cons]
    exact ⟨by decide, by decide, by decide, by decide, List.forall_mem_nil _⟩
  exact h.not_mem (hall c hmem) hc

/-- **A step to a name** selects what has the name. -/
theorem selectStep_nameStep (hname : IsName name) (hinteger : IndexSet.isInteger name = false) :
    selectStep n (nameStep name) = n.named name := by
  have htrim : trim (nameStep name) = nameStep name := trim_nameStep hname.isBlank
  have hspaced : ¬ IsSpacedExclusion (nameStep name) := fun h =>
    hname.not_mem (by decide) ((mem_nameStep_iff (by decide)).mp h.1)
  rw [selectStep_of_not_isSpacedExclusion htrim hspaced, selectOne_of_nameStep htrim hname.isBlank
    (splitIndexSuffix_nameStep hname.isBlank hname.not_mem_marks hinteger), picked]

/-- **A set in brackets** picks from what has the name. -/
theorem selectStep_filteredStep (hname : IsName name)
    (hset : IndexSet.ofBracket? content = some set) (hspaced : ¬ IsSpacedExclusion content) :
    selectStep n (filteredStep name content) = set.apply (n.named name) := by
  have htrim := trim_filteredStep name content
  have hsplit : splitIndexSuffix (filteredStep name content) = (nameStep name, some set) := by
    have hend : trimEnd (nameStep name) = nameStep name := trim_nameStep hname.isBlank
    have hstart : filteredStep name content =
        't' :: ("ag.".toList ++ name) ++ '[' :: (content ++ [']']) := by
      simp [filteredStep, nameStep_eq]
    rw [hstart, splitIndexSuffix_bracketed (by decide) hset]
    exact congrArg (·, some set) hend
  rw [selectStep_of_not_isSpacedExclusion htrim
      (mt hname.isSpacedExclusion_filteredStep_iff.mp hspaced),
    selectOne_of_nameStep htrim hname.isBlank hsplit, picked]

/-! ### Spaced exclusions -/

theorem exists_first_blank (h : ∃ b ∈ s, isBlank b = true) :
    ∃ u b r, s = u ++ b :: r ∧ isBlank b = true ∧ ∀ c ∈ u, isBlank c = false := by
  obtain ⟨b, hb⟩ := Option.isSome_iff_exists.mp (List.find?_isSome.mpr h)
  obtain ⟨hblank, u, r, heq, hu⟩ := List.find?_eq_some_iff_append.mp hb
  exact ⟨u, b, r, heq, hblank, by simpa using hu⟩

/-- What stands in brackets before a first blank: nothing, or the exclusion mark and what entries
are written with. -/
def IsHead (u : List Char) : Prop :=
  u = [] ∨ ∃ w, u = '!' :: w ∧ ∀ c ∈ w, IndexSet.isEntryChar c = true

/-- The first word of a spaced exclusion ends before the first blank in its brackets. -/
theorem exists_words_filteredStep (hname : IsName name)
    (hset : IndexSet.ofBracket? content = some set) (hspaced : IsSpacedExclusion content) :
    ∃ u t, words (filteredStep name content) = nameStep (name ++ '[' :: u) :: t ∧
      (∀ c ∈ u, isBlank c = false) ∧ IsHead u := by
  obtain ⟨hmark, hblank⟩ := hspaced
  obtain ⟨u, b, r, heq, hb, hu⟩ := exists_first_blank hblank
  have hwords : words (filteredStep name content) =
      nameStep (name ++ '[' :: u) :: words (r ++ [']']) := by
    rw [← words_append_cons (isBlank_nameStep (hname.isBlank_opened hu)) (by simp [nameStep_eq]) hb]
    simp [filteredStep, nameStep_eq, heq]
  refine ⟨u, _, hwords, hu, ?_⟩
  -- the mark stands first but for blanks, and so does it before the first blank
  rcases IndexSet.of_ofBracket? hset with hall | ⟨before, rest, hcontent, hbefore, hrest⟩
  · exact absurd (hall '!' hmark) (by decide)
  cases u with
  | nil => exact .inl rfl
  | cons a w =>
    have hstart : isBlank a = false := hu a List.mem_cons_self
    cases before with
    | nil =>
      rw [hcontent, List.nil_append, List.cons_append] at heq
      obtain ⟨rfl, rfl⟩ := List.cons.inj heq
      exact .inr ⟨w, rfl, fun c hc => hrest c (List.mem_append_left _ hc)⟩
    | cons a' before =>
      rw [hcontent, List.cons_append, List.cons_append] at heq
      obtain ⟨rfl, -⟩ := List.cons.inj heq
      rw [hbefore a' List.mem_cons_self] at hstart
      cases hstart

/-- Off a name with a bracket that is left open nothing is split. -/
theorem splitIndexSuffix_bracket (hname : IsName name) :
    splitIndexSuffix (nameStep (name ++ ['['])) = (nameStep (name ++ ['[']), none) := by
  have hmarks : ∀ c ∈ name ++ ['['], c ∉ marks := by
    rw [List.forall_mem_append]
    exact ⟨hname.not_mem_marks, List.forall_mem_singleton.mpr (by decide)⟩
  have hinteger : IndexSet.isInteger (name ++ ['[']) = false := by
    rw [Bool.eq_false_iff]
    intro h
    rcases IndexSet.isDigit_or_of_isInteger h '[' (by simp) with h | h <;> exact absurd h (by decide)
  exact splitIndexSuffix_nameStep (hname.isBlank_opened fun _ h => by cases h) hmarks hinteger

/-- Off a name with an exclusion that is left open nothing is split, or the exclusion is. -/
theorem splitIndexSuffix_exclusion (hname : IsName name) (hs : ∀ c ∈ s, isBlank c = false)
    (hentry : ∀ c ∈ s, IndexSet.isEntryChar c = true) :
    splitIndexSuffix (nameStep (name ++ '[' :: '!' :: s)) =
        (nameStep (name ++ '[' :: '!' :: s), none) ∨
      (splitIndexSuffix (nameStep (name ++ '[' :: '!' :: s))).1 = nameStep (name ++ ['[']) := by
  have hne {c d : Char} (hc : c ∈ s) (hd : IndexSet.isEntryChar d = false) : c ≠ d :=
    IndexSet.ne_of_isEntryChar (hentry c hc) hd
  have hlast : (nameStep (name ++ ['[']) ++ '!' :: s).getLast? ≠ some ']' := by
    intro hlast
    have hname' : ']' ∉ name := hname.not_mem (by decide)
    have hs' : ']' ∉ s := fun hmem => hne hmem (by decide) rfl
    have hmem := List.mem_of_getLast? hlast
    rw [List.mem_append, mem_nameStep_iff (by decide)] at hmem
    simp [hname', hs'] at hmem
  have hlist : ∀ c ∈ s, c ≠ '.' ∧ c ≠ '!' := fun c hc => ⟨hne hc (by decide), hne hc (by decide)⟩
  have hassoc : nameStep (name ++ '[' :: '!' :: s) = nameStep (name ++ ['[']) ++ '!' :: s := by
    simp [nameStep_eq]
  have hopened : ∀ c ∈ '!' :: s, isBlank c = false := List.forall_mem_cons.mpr ⟨by decide, hs⟩
  have htrim := trim_nameStep (hname.isBlank_opened hopened)
  rw [hassoc] at htrim ⊢
  exact (splitIndexSuffix_marked htrim hlast (.inr rfl) hlist).imp id And.right

/-- The first word of a spaced exclusion is a step to what has a bracket in its name. -/
theorem exists_splitIndexSuffix_opened (hname : IsName name) (hu : ∀ c ∈ u, isBlank c = false)
    (hhead : IsHead u) :
    ∃ v set?, splitIndexSuffix (nameStep (name ++ '[' :: u)) =
        (nameStep (name ++ '[' :: v), set?) ∧
      (∀ c ∈ v, isBlank c = false) ∧ (v = [] ∨ v.head? = some '!') := by
  rcases hhead with rfl | ⟨w, rfl, hw⟩
  · exact ⟨[], none, splitIndexSuffix_bracket hname, hu, .inl rfl⟩
  · have hblank := (List.forall_mem_cons.mp hu).2
    rcases splitIndexSuffix_exclusion hname hblank hw with heq | heq
    · exact ⟨'!' :: w, none, heq, hu, .inr rfl⟩
    · exact ⟨[], _, Prod.ext heq rfl, by simp, .inl rfl⟩

theorem named_opened (hname : IsName name) (hopened : NothingOpened name n)
    (hs : s = [] ∨ s.head? = some '!') : n.named (name ++ '[' :: s) = [] := by
  cases n with
  | element e =>
    rw [Node.named, Css.select?, Css.parse?_open (fun c hc => (hname c hc).1) hs]
    rfl
  | json v i => rw [Node.named, hopened s]

/-- **A spaced exclusion** is a chain of words, the first of which selects nothing. -/
theorem selectStep_filteredStep_of_isSpacedExclusion (hname : IsName name)
    (hset : IndexSet.ofBracket? content = some set) (hspaced : IsSpacedExclusion content)
    (hopened : NothingOpened name n) : selectStep n (filteredStep name content) = [] := by
  obtain ⟨u, t, hwords, hu, hhead⟩ := exists_words_filteredStep hname hset hspaced
  obtain ⟨v, set?, hsplit, hv, hopen⟩ := exists_splitIndexSuffix_opened hname hu hhead
  have hfirst : selectOne n (nameStep (name ++ '[' :: u)) = [] := by
    rw [selectOne_of_nameStep (trim_nameStep (hname.isBlank_opened hu)) (hname.isBlank_opened hv)
      hsplit, named_opened hname hopened hopen, picked_nil]
  have hstep := hname.isSpacedExclusion_filteredStep_iff.mpr hspaced
  rw [selectStep_of_isSpacedExclusion (trim_filteredStep name content) hstep, hwords, follow,
    List.foldl_cons, List.flatMap_singleton, hfirst]
  exact follow_nil selectOne t

/-- **A filter in brackets** picks by its set from what the step to the name selects, if and only if
it is no exclusion that is written with a blank, or it leaves nothing. -/
theorem selectStep_filteredStep_iff (n : Node) {name content : List Char} {set : IndexSet}
    (hname : IsName name) (hinteger : IndexSet.isInteger name = false)
    (hset : IndexSet.ofBracket? content = some set) (hopened : NothingOpened name n) :
    selectStep n (filteredStep name content) = set.apply (selectStep n (nameStep name)) ↔
      ¬ IsSpacedExclusion content ∨ set.apply (selectStep n (nameStep name)) = [] := by
  rw [selectStep_nameStep hname hinteger]
  by_cases hspaced : IsSpacedExclusion content
  · rw [selectStep_filteredStep_of_isSpacedExclusion hname hset hspaced hopened]
    simp only [hspaced, not_true_eq_false, false_or]
    exact eq_comm
  · simp [hspaced, selectStep_filteredStep hname hset hspaced]

/-- A list of two items. -/
def twoItems : Html.Element :=
  .top ⟨.html, "ul", []⟩
    [.element ⟨.html, "li", []⟩ [.text "a"], .element ⟨.html, "li", []⟩ [.text "b"]]

/-- The last item and the first, with blanks around the comma. -/
theorem selectStep_lastAndFirstItem :
    IsName "li".toList ∧ IndexSet.isInteger "li".toList = false ∧
    IndexSet.ofBracket? " -1 , 0".toList = some ⟨false, [.single (-1), .single 0]⟩ ∧
    NothingOpened "li".toList (.element twoItems) ∧
    (selectStep (.element twoItems) (filteredStep "li".toList " -1 , 0".toList) =
        IndexSet.apply ⟨false, [.single (-1), .single 0]⟩
          (selectStep (.element twoItems) (nameStep "li".toList)) ↔
      ¬ IsSpacedExclusion " -1 , 0".toList ∨
        IndexSet.apply ⟨false, [.single (-1), .single 0]⟩
          (selectStep (.element twoItems) (nameStep "li".toList)) = []) ∧
    (selectStep (.element twoItems) "tag.li[ -1 , 0]".toList).map Node.text = ["b", "a"] :=
  ⟨by decide, by decide, by decide +kernel, trivial,
    selectStep_filteredStep_iff (.element twoItems) (by decide) (by decide) (by decide +kernel)
      trivial,
    by decide +kernel⟩

/-- Without its first item the list has one item, but the exclusion with a blank selects none. -/
theorem spacedExclusion_selects_nothing :
    IndexSet.ofBracket? "! 0".toList = some ⟨true, [.single 0]⟩ ∧
    (IndexSet.apply ⟨true, [.single 0]⟩
      (selectStep (.element twoItems) "tag.li".toList)).map Node.text = ["b"] ∧
    (selectStep (.element twoItems) "tag.li[!0]".toList).map Node.text = ["b"] ∧
    (selectStep (.element twoItems) "tag.li[! 0]".toList).map Node.text = [] :=
  ⟨by decide +kernel, by decide +kernel, by decide +kernel, by decide +kernel⟩

end Scrape.Chain
