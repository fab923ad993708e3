import Scrape.Proofs.Rule.Reading

/-!
# Rule — Agreement

Whether what a rule is said to carry is what it is taken apart into.  `hasScript` asks only whether
marks occur, and `segments` reads them in their order, so that they disagree on a script that is
opened and not closed when a closing mark stands before it or the mark of a last script after it.

Main statement (`agrees_iff`): they disagree on no other rule.
-/

namespace Scrape.Rule

open Scrape.Text (asciiLower trim)

/-- A rule is said to carry a script if and only if one is among its segments, and none of its rule
texts is said to carry one. -/
def Agrees (rule : List Char) : Prop :=
  (hasScript rule = true ↔ ∃ source, .script source ∈ segments rule) ∧
    ∀ text, .rule text ∈ segments rule → hasScript text = false

/-- After some scripts that are closed, a script is opened and not closed, with a closing mark
before it or the mark of a last script after it. -/
inductive Disputed : List Char → Prop where
  | here {before mark body : List Char} (hbefore : Free before)
      (hmark : asciiLower mark = scriptOpen) (hbody : ¬ HasMark scriptClose body)
      (h : HasMark scriptClose before ∨ HasMark scriptTail body) :
      Disputed (before ++ mark ++ body)
  | later {before opening source closing rest : List Char} (hbefore : Free before)
      (hopening : asciiLower opening = scriptOpen) (hsource : ¬ HasMark scriptClose source)
      (hclosing : asciiLower closing = scriptClose) (hrest : Disputed rest) :
      Disputed (before ++ opening ++ (source ++ closing ++ rest))

/-! ### What the marks say of each part -/

theorem Free.not_hasScript {s : List Char} (h : Free s) : hasScript s = false := by
  rw [Bool.eq_false_iff, ne_eq, hasScript_iff]
  rintro (htail | ⟨hopen, -⟩)
  · exact h.tails htail
  · exact h.opens hopen

theorem hasScript_of_tail {before mark : List Char} (hmark : asciiLower mark = scriptTail)
    (source : List Char) : hasScript (before ++ mark ++ source) = true :=
  hasScript_iff.mpr (.inl (hasMark_append hmark))

theorem hasScript_of_span {before opening source closing rest : List Char}
    (hopening : asciiLower opening = scriptOpen) (hclosing : asciiLower closing = scriptClose) :
    hasScript (before ++ opening ++ (source ++ closing ++ rest)) = true := by
  have hclose : HasMark scriptClose (source ++ closing ++ rest) := hasMark_append hclosing
  exact hasScript_iff.mpr (.inr ⟨hasMark_append hopening, hclose.mono (List.suffix_append _ _).isInfix⟩)

theorem hasScript_of_unclosed_iff {before mark body : List Char} (hbefore : Free before)
    (hmark : asciiLower mark = scriptOpen) (hbody : ¬ HasMark scriptClose body) :
    hasScript (before ++ mark ++ body) = true ↔
      HasMark scriptClose before ∨ HasMark scriptTail body := by
  rw [hasScript_iff, hasMark_scriptTail_append_iff hmark, hasMark_scriptClose_append_iff hmark]
  have hopen : HasMark scriptOpen (before ++ mark ++ body) := hasMark_append hmark
  simp only [hopen, hbody, hbefore.tails, false_or, or_false, true_and]
  exact or_comm

/-! ### Texts among segments -/

theorem eq_trim_of_mem_textSegment {s text : List Char} (h : .rule text ∈ textSegment s) :
    text = trim s := by
  unfold textSegment at h
  grind

theorem not_script_mem_textSegment {s source : List Char} : .script source ∉ textSegment s := by
  unfold textSegment
  grind

theorem hasScript_of_mem_textSegment {s text : List Char} (h : .rule text ∈ textSegment s) :
    hasScript text = hasScript s := by
  rw [eq_trim_of_mem_textSegment h, hasScript_trim]

/-- A text that is said to carry a script is not blank. -/
theorem textSegment_of_hasScript {s : List Char} (h : hasScript s = true) :
    textSegment s = [.rule (trim s)] := by
  have hne : trim s ≠ [] := by
    intro hnil
    rw [← hasScript_trim, hnil] at h
    cases h
  simp [textSegment, hne]

/-! ### Rules without scripts -/

/-- No script is read in the rule. -/
def Scriptless (rule : List Char) : Prop := ∀ source, .script source ∉ segments rule

/-- A script is read before any rule text. -/
def BeginsWithScript (rule : List Char) : Prop :=
  ∃ source after, segments rule = .script source :: after

theorem segments_of_scriptless {rule : List Char} (h : Scriptless rule) :
    segments rule = textSegment rule := by
  obtain ⟨l, hl⟩ := exists_reading rule
  have hsegments := segments_eq_iff.mpr hl
  rw [Scriptless, hsegments] at h
  rw [hsegments]
  cases hl with
  | plain | unclosed => rfl
  | tail source => exact absurd (by simp) (h source)
  | @span _ _ source => exact absurd (by simp) (h source)

theorem Scriptless.not_beginsWithScript {rule : List Char} (h : Scriptless rule) :
    ¬ BeginsWithScript rule := fun ⟨source, _, hl⟩ => h source (hl ▸ List.mem_cons_self)

theorem scriptless_of_not_hasScript {rule : List Char} (h : hasScript rule = false) :
    Scriptless rule := by
  obtain ⟨l, hl⟩ := exists_reading rule
  rw [Scriptless, segments_eq_iff.mpr hl]
  cases hl with
  | plain | unclosed => exact fun _ => not_script_mem_textSegment
  | tail source _ hmark => exact absurd h (by rw [hasScript_of_tail hmark]; simp)
  | span _ hopening _ hclosing =>
    exact absurd h (by rw [hasScript_of_span hopening hclosing]; simp)

/-! ### Agreement -/

/-- A disputed rule has a rule text that is said to carry a script. -/
theorem Disputed.exists_rule {rule : List Char} (h : Disputed rule) :
    ∃ text, .rule text ∈ segments rule ∧ hasScript text = true := by
  induction h with
  | @here before mark body hbefore hmark hbody h =>
    have hscript := (hasScript_of_unclosed_iff hbefore hmark hbody).mpr h
    rw [segments_eq_iff.mpr (.unclosed hbefore hmark hbody), textSegment_of_hasScript hscript]
    exact ⟨_, List.mem_singleton_self _, by rwa [hasScript_trim]⟩
  | @later before opening source closing rest hbefore hopening hsource hclosing hrest ih =>
    obtain ⟨text, hmem, htext⟩ := ih
    have hreading := segments_eq_iff.mp (rfl : segments rest = segments rest)
    rw [segments_eq_iff.mpr (.span hbefore hopening hsource hclosing hreading)]
    exact ⟨text, List.mem_append_right _ (List.mem_cons_of_mem _ hmem), htext⟩

/-- What a rule that is not disputed is said to carry, is what it is read as. -/
theorem Reading.agrees {rule : List Char} {l : List Segment} (h : Reading rule l)
    (hrule : ¬ Disputed rule) :
    (hasScript rule = true ↔ ∃ source, .script source ∈ l) ∧
      ∀ text, .rule text ∈ l → hasScript text = false := by
  induction h with
  | plain hfree =>
    refine ⟨?_, fun text htext => (hasScript_of_mem_textSegment htext).trans hfree.not_hasScript⟩
    simp [hfree.not_hasScript, not_script_mem_textSegment]
  | @tail before mark source hbefore hmark =>
    refine ⟨?_, fun text htext => ?_⟩
    · simp only [hasScript_of_tail hmark, true_iff]
      exact ⟨source, by simp⟩
    · have hmem : .rule text ∈ textSegment before := by simpa using htext
      exact (hasScript_of_mem_textSegment hmem).trans hbefore.not_hasScript
  | @unclosed before mark body hbefore hmark hbody =>
    have hnot : hasScript (before ++ mark ++ body) = false := by
      rw [Bool.eq_false_iff, ne_eq, hasScript_of_unclosed_iff hbefore hmark hbody]
      exact fun h => hrule (.here hbefore hmark hbody h)
    refine ⟨?_, fun text htext => (hasScript_of_mem_textSegment htext).trans hnot⟩
    simp only [hnot, not_script_mem_textSegment, exists_false, Bool.false_eq_true]
  | @span before opening source closing rest l hbefore hopening hsource hclosing _ ih =>
    obtain ⟨-, htexts⟩ := ih fun h => hrule (.later hbefore hopening hsource hclosing h)
    refine ⟨?_, fun text htext => ?_⟩
    · simp only [hasScript_of_span hopening hclosing, true_iff]
      exact ⟨source, by simp⟩
    · rcases List.mem_append.mp htext with htext | htext
      · exact (hasScript_of_mem_textSegment htext).trans hbefore.not_hasScript
      · exact htexts text (by simpa using htext)

/-- **Where what a rule is said to carry is what it is taken apart into**: exactly where no script
is opened and not closed that has a closing mark before it or the mark of a last script after
it. -/
theorem agrees_iff (rule : List Char) : Agrees rule ↔ ¬ Disputed rule := by
  constructor
  · rintro ⟨-, htexts⟩ hrule
    obtain ⟨text, hmem, htext⟩ := hrule.exists_rule
    rw [htexts text hmem] at htext
    cases htext
  · exact (segments_eq_iff.mp rfl).agrees

/-- A closing mark, and then an opening one. -/
def crossedRule : List Char := "</js><js>".toList

/-- The rule of two crossed marks is said to carry a script, and holds none. -/
theorem not_agrees_crossedRule : ¬ Agrees crossedRule := by
  have hrule : crossedRule = "</js>".toList ++ "<js>".toList ++ [] := by decide
  have hfree : Free "</js>".toList := ⟨by decide, by decide⟩
  have hreading := @Reading.unclosed _ "<js>".toList [] hfree (by decide) (by decide)
  rw [← hrule] at hreading
  intro h
  obtain ⟨source, hsource⟩ := h.1.mp (by decide)
  rw [segments_eq_iff.mpr hreading] at hsource
  exact not_script_mem_textSegment hsource

end Scrape.Rule
