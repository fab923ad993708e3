import Scrape.Proofs.Text.Blank
import Scrape.Proofs.Text.Find
import Scrape.Rule.Segment

/-!
# Rule — Mark

Marks in a rule, whose letters may be small or capital.  `cutMark?` cuts at the first occurrence of
a mark (`eq_append_of_cutMark?`), and finds it where it stands after a text without the mark
(`cutMark?_append`): the first character of a mark of scripts does not come again in it, so that a
mark cannot begin in the text before another and end within that one.  Nor does a mark reach over a
character that it does not hold (`hasMark_append_cons_iff`).
-/

namespace Scrape.Rule

open Scrape.Text (asciiLower asciiLower_trim contains contains_iff equalIgnoringCase infix_trim_iff
  isBlank trim)

/-! ### Occurrences across a character -/

section

variable {α : Type} {c : α} {w x z : List α}

/-- A text without `c` that stands at the beginning, ends before the first `c`. -/
theorem prefix_of_prefix_append_cons (hc : c ∉ w) (h : w <+: x ++ c :: z) : w <+: x := by
  induction x generalizing w with
  | nil =>
    cases w with
    | nil => exact List.nil_prefix
    | cons a w =>
      obtain ⟨rfl, -⟩ := List.cons_prefix_cons.mp h
      simp at hc
  | cons b x ih =>
    cases w with
    | nil => exact List.nil_prefix
    | cons a w =>
      obtain ⟨rfl, hw⟩ := List.cons_prefix_cons.mp h
      exact List.cons_prefix_cons.mpr ⟨rfl, ih (List.not_mem_of_not_mem_cons hc) hw⟩

/-- A text in which `c` stands at most in front, begins no earlier than at `c` or ends before
it. -/
theorem infix_or_infix_of_infix_append_cons (hc : c ∉ w.tail) (h : w <:+: x ++ c :: z) :
    w <:+: x ∨ w <:+: c :: z := by
  induction x with
  | nil => exact .inr h
  | cons b x ih =>
    rcases List.infix_cons_iff.mp h with h | h
    · cases w with
      | nil => exact .inl List.nil_infix
      | cons a w =>
        obtain ⟨rfl, hw⟩ := List.cons_prefix_cons.mp h
        exact .inl (List.cons_prefix_cons.mpr ⟨rfl, prefix_of_prefix_append_cons hc hw⟩).isInfix
    · exact (ih h).imp List.infix_cons id

end

/-! ### Marks -/

/-- The mark occurs in the text, in small or capital letters. -/
def HasMark (mark s : List Char) : Prop := asciiLower mark <:+: asciiLower s

instance (mark s : List Char) : Decidable (HasMark mark s) :=
  inferInstanceAs (Decidable (asciiLower mark <:+: asciiLower s))

variable {mark s t before rest : List Char}

@[simp] theorem asciiLower_append (s t : List Char) :
    asciiLower (s ++ t) = asciiLower s ++ asciiLower t :=
  List.map_append

theorem HasMark.mono (h : HasMark mark s) (hs : s <:+: t) : HasMark mark t :=
  h.trans (hs.map _)

/-- A mark that stands in the text occurs in it. -/
theorem hasMark_append {found : List Char} (hfound : asciiLower found = asciiLower mark) :
    HasMark mark (before ++ found ++ rest) :=
  ⟨asciiLower before, asciiLower rest, by simp [hfound]⟩

theorem hasMark_cons_iff {c : Char} :
    HasMark mark (c :: s) ↔ asciiLower mark <+: asciiLower (c :: s) ∨ HasMark mark s :=
  List.infix_cons_iff

theorem not_hasMark_nil (hm : mark ≠ []) : ¬ HasMark mark [] := by
  intro h
  exact hm (List.map_eq_nil_iff.mp (List.infix_nil.mp h))

theorem eq_of_toLower_eq {c d : Char} (hd : d.toNat < 97) (h : c.toLower = d) : c = d := by
  unfold Char.toLower at h
  split at h
  · next hcapital =>
    obtain ⟨hle, hge⟩ : 65 ≤ c.toNat ∧ c.toNat ≤ 90 := hcapital
    have hsmall : (c.val + ('a'.val - 'A'.val)).toNat = (c.toNat + 32) % 4294967296 := rfl
    have hval : d.toNat = (c.val + ('a'.val - 'A'.val)).toNat := by rw [← h]; rfl
    omega
  · exact h

/-- A mark does not reach over a character that it does not hold. -/
theorem hasMark_append_cons_iff {c : Char} {x z : List Char}
    (hc : c.toLower ∉ asciiLower mark) (hne : asciiLower mark ≠ []) :
    HasMark mark (x ++ c :: z) ↔ HasMark mark x ∨ HasMark mark z := by
  constructor
  · intro h
    have hlower : asciiLower mark <:+: asciiLower x ++ c.toLower :: asciiLower z := by
      simpa [HasMark, asciiLower] using h
    refine (infix_or_infix_of_infix_append_cons
      (fun hmem => hc (List.mem_of_mem_tail hmem)) hlower).imp_right fun h => ?_
    rcases List.infix_cons_iff.mp h with hstart | h
    · obtain ⟨a, l, hl⟩ := List.exists_cons_of_ne_nil hne
      rw [hl] at hstart hc
      exact absurd (List.mem_cons.mpr (.inl (List.cons_prefix_cons.mp hstart).1.symm)) hc
    · exact h
  · rintro (h | h)
    · exact h.mono ⟨[], c :: z, by simp⟩
    · exact h.mono ⟨x ++ [c], [], by simp⟩

/-- A text that lacks a character of a mark, which is no letter, lacks the mark. -/
theorem not_hasMark_of_not_mem {c : Char} {s : List Char} (hc : c ∈ asciiLower mark)
    (hletter : c.toNat < 97) (hs : c ∉ s) : ¬ HasMark mark s := by
  intro h
  obtain ⟨d, hd, hlower⟩ := List.mem_map.mp (h.subset hc)
  exact hs (eq_of_toLower_eq hletter hlower ▸ hd)

/-- The test of `cutMark?` at a place. -/
theorem equalIgnoringCase_take_iff :
    equalIgnoringCase mark (s.take mark.length) = true ↔ asciiLower mark <+: asciiLower s := by
  rw [equalIgnoringCase, beq_iff_eq, List.prefix_iff_eq_take]
  simp [asciiLower, List.map_take]

/-- Trimming a text takes no mark out of it, if the mark holds no blank. -/
theorem hasMark_trim_iff (hmark : (asciiLower mark).any isBlank = false) :
    HasMark mark (trim s) ↔ HasMark mark s := by
  rw [HasMark, HasMark, asciiLower_trim, infix_trim_iff (by simpa using hmark)]

theorem hasScript_iff {rule : List Char} : hasScript rule = true ↔
    HasMark scriptTail rule ∨ HasMark scriptOpen rule ∧ HasMark scriptClose rule := by
  simp only [hasScript, Bool.or_eq_true, Bool.and_eq_true, contains_iff]
  rfl

@[simp] theorem hasScript_trim (s : List Char) : hasScript (trim s) = hasScript s := by
  rw [Bool.eq_iff_iff, hasScript_iff, hasScript_iff, hasMark_trim_iff (by decide),
    hasMark_trim_iff (by decide), hasMark_trim_iff (by decide)]

/-! ### Cuts -/

theorem cutMarkAfter?_eq_none_iff (hm : mark ≠ []) {seen : List Char} :
    cutMarkAfter? mark seen s = none ↔ ¬ HasMark mark s := by
  fun_induction cutMarkAfter? mark seen s with
  | case1 => simpa using not_hasMark_nil hm
  | case2 seen c s h =>
    have hc := hasMark_cons_iff.mpr (.inl (equalIgnoringCase_take_iff.mp h))
    simp [hc]
  | case3 seen c s h ih =>
    rw [equalIgnoringCase_take_iff] at h
    rw [ih, hasMark_cons_iff]
    simp [h]

theorem cutMark?_eq_none_iff (hm : mark ≠ []) : cutMark? mark s = none ↔ ¬ HasMark mark s :=
  cutMarkAfter?_eq_none_iff hm

theorem cutMark?_isSome_iff (hm : mark ≠ []) :
    (cutMark? mark s).isSome = true ↔ HasMark mark s := by
  rw [Option.isSome_iff_ne_none, ne_eq, cutMark?_eq_none_iff hm, not_not]

theorem eq_append_of_cutMarkAfter? (hm : mark ≠ []) {seen : List Char}
    (h : cutMarkAfter? mark seen s = some (before, rest)) :
    ∃ passed found, before = seen.reverse ++ passed ∧ s = passed ++ found ++ rest ∧
      asciiLower found = asciiLower mark ∧ ¬ HasMark mark passed := by
  fun_induction cutMarkAfter? mark seen s with
  | case1 => simp at h
  | case2 seen c s hfound =>
    obtain ⟨rfl, rfl⟩ := by simpa using h
    refine ⟨[], (c :: s).take mark.length, by simp, (List.take_append_drop _ _).symm, ?_,
      not_hasMark_nil hm⟩
    exact (eq_of_beq hfound).symm
  | case3 seen c s hnot ih =>
    obtain ⟨passed, found, rfl, hs, hfound, hpassed⟩ := ih h
    refine ⟨c :: passed, found, by simp, by simp [hs], hfound, ?_⟩
    rw [equalIgnoringCase_take_iff] at hnot
    rw [hasMark_cons_iff]
    rintro (h | h)
    · refine hnot (h.trans ?_)
      rw [hs, List.append_assoc]
      exact (List.prefix_append (c :: passed) (found ++ rest)).map Char.toLower
    · exact hpassed h

/-- **A cut at a mark**: the text before the mark, which does not hold it, the mark and the rest are
the text. -/
theorem eq_append_of_cutMark? (hm : mark ≠ []) (h : cutMark? mark s = some (before, rest)) :
    ∃ found, s = before ++ found ++ rest ∧ asciiLower found = asciiLower mark ∧
      ¬ HasMark mark before := by
  obtain ⟨passed, found, rfl, hs⟩ := eq_append_of_cutMarkAfter? hm h
  exact ⟨found, hs⟩

theorem cutMarkAfter?_append {c : Char} {w found : List Char} (hmark : asciiLower mark = c :: w)
    (hc : c ∉ w) (hbefore : ¬ HasMark mark before) (hfound : asciiLower found = asciiLower mark)
    (rest seen : List Char) :
    cutMarkAfter? mark seen (before ++ found ++ rest) = some (seen.reverse ++ before, rest) := by
  induction before generalizing seen with
  | nil =>
    have hlength : found.length = mark.length := by
      simpa [asciiLower] using congrArg List.length hfound
    cases found with
    | nil =>
      rw [← hfound] at hmark
      cases hmark
    | cons a found =>
      have htake : (a :: found ++ rest).take mark.length = a :: found := by
        rw [← hlength, List.take_left]
      rw [List.nil_append, List.cons_append, cutMarkAfter?, ← List.cons_append, htake, if_pos]
      · rw [← hlength, List.drop_left, List.append_nil]
      · simp [equalIgnoringCase, hfound]
  | cons a before ih =>
    rw [hasMark_cons_iff, not_or] at hbefore
    rw [List.cons_append, List.cons_append, cutMarkAfter?, if_neg, ih hbefore.2]
    · simp
    · -- the mark would stand at the beginning, and so end before the mark that follows
      rw [equalIgnoringCase_take_iff]
      intro hprefix
      refine hbefore.1 ?_
      have hlower : asciiLower (a :: (before ++ found ++ rest)) =
          a.toLower :: (asciiLower before ++ (asciiLower mark ++ asciiLower rest)) := by
        rw [← hfound]
        simp [asciiLower]
      rw [hlower, hmark, List.cons_append] at hprefix
      obtain ⟨ha, hw⟩ := List.cons_prefix_cons.mp hprefix
      rw [hmark]
      exact List.cons_prefix_cons.mpr ⟨ha, prefix_of_prefix_append_cons hc hw⟩

/-- **A mark after a text without it** is where the text is cut, if the first character of the mark
does not come again in it. -/
theorem cutMark?_append {c : Char} {w found : List Char} (hmark : asciiLower mark = c :: w)
    (hc : c ∉ w) (hbefore : ¬ HasMark mark before) (hfound : asciiLower found = asciiLower mark)
    (rest : List Char) : cutMark? mark (before ++ found ++ rest) = some (before, rest) :=
  cutMarkAfter?_append hmark hc hbefore hfound rest []

/-! ### The marks of scripts -/

section

variable {found : List Char}

theorem cutMark?_scriptOpen (hbefore : ¬ HasMark scriptOpen before)
    (hfound : asciiLower found = scriptOpen) (rest : List Char) :
    cutMark? scriptOpen (before ++ found ++ rest) = some (before, rest) :=
  cutMark?_append (c := '<') (w := "js>".toList) (by decide) (by decide) hbefore hfound rest

theorem cutMark?_scriptClose (hbefore : ¬ HasMark scriptClose before)
    (hfound : asciiLower found = scriptClose) (rest : List Char) :
    cutMark? scriptClose (before ++ found ++ rest) = some (before, rest) :=
  cutMark?_append (c := '<') (w := "/js>".toList) (by decide) (by decide) hbefore hfound rest

theorem cutMark?_scriptTail (hbefore : ¬ HasMark scriptTail before)
    (hfound : asciiLower found = scriptTail) (rest : List Char) :
    cutMark? scriptTail (before ++ found ++ rest) = some (before, rest) :=
  cutMark?_append (c := '@') (w := "js:".toList) (by decide) (by decide) hbefore hfound rest

end

end Scrape.Rule
