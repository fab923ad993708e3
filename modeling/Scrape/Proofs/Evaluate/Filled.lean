import Mathlib
import Scrape.Proofs.Evaluate.Calls
import Scrape.Proofs.Evaluate.Suffix

/-!
# Evaluate — Filled

Rules that are text with templates and select nothing, such as the pattern of an address.  The
templates are resolved in order and their values put in their places; but the text that comes of
this is taken apart at its first `##` once more, also at one that a value has brought in.

Main statement (`run?_eq_some_iff_filled`): the result is the filled text without the blanks at its
ends if there is no `##` in it, and otherwise what stands before the first, rewritten by what stands
after it.  So a value can take away from the result (`cutRule_loses`).
-/

namespace Scrape.Evaluate

open Scrape.Rule (Spans hasScript spans)
open Scrape.Text (cut? cut?_eq_none_iff trim)

variable {options : Options}

namespace Task

/-- The rule of a task with a value for each of its templates. -/
def filled (t : Task) (values : List (Option (List Char))) : List Char :=
  (spans templateTags (trim t.rule)).filledWith templateTags values

/-- The values of the templates of a task, each with the session that those before have left. -/
def resolve (options : Options) (depth : Nat) (t : Task) : Eval (List (Option (List Char))) :=
  (spans templateTags (trim t.rule)).inners.mapM
    (resolveTemplate options (evalText options depth) t.node)

end Task

/-- What is made of a text that selects nothing: what stands before its tail, rewritten by it. -/
def plainResult (text : List Char) : String :=
  (splitSuffix text).2.apply (String.ofList (trim (splitSuffix text).1))

theorem plainResult_of_absent {text : List Char} (h : ¬ suffixMark <:+: text) :
    plainResult text = String.ofList (trim text) := by
  rw [plainResult, splitSuffix_of_absent h]
  exact Suffix.apply_of_isEmpty rfl _

theorem plainResult_of_cut? {text before rest : List Char}
    (h : cut? suffixMark text = some (before, rest)) :
    plainResult text = (splitSuffix text).2.apply (String.ofList (trim before)) := by
  rw [plainResult, splitSuffix_of_cut? h]

theorem run?_of_not_selects {t : Task} (hscript : hasScript t.rule = false)
    (hspan : (spans templateTags (trim t.rule)).hasSpan = true)
    (hselects : selects (trim t.rule) = false) (depth : Nat) :
    t.run? options (depth + 1) =
      ((t.resolve options depth).run t.session).map fun r => (plainResult (t.filled r.1), r.2) := by
  rw [Task.run?, evalText, evalRule_of_not_hasScript hscript, evalPlain_of_hasSpan hspan,
    Spans.fillM_eq_mapM, ← Task.resolve, StateT.run_bind, StateT.run_bind]
  cases (t.resolve options depth).run t.session with
  | none => rfl
  | some r =>
    obtain ⟨values, session⟩ := r
    simp only [evalFilled, hselects, if_neg Bool.false_ne_true]
    rfl

/-- **The text with its templates filled in**, as a result: all of it without the blanks at its ends
if there is no `##` in it, else what stands before the first, rewritten by what stands after it. -/
theorem run?_eq_some_iff_filled {t : Task} (hscript : hasScript t.rule = false)
    (hspan : (spans templateTags (trim t.rule)).hasSpan = true)
    (hselects : selects (trim t.rule) = false) {depth : Nat} {text : String} {session : Session} :
    t.run? options (depth + 1) = some (text, session) ↔
      ∃ values, (t.resolve options depth).run t.session = some (values, session) ∧
        (¬ suffixMark <:+: t.filled values → text = String.ofList (trim (t.filled values))) ∧
        (∀ before rest, cut? suffixMark (t.filled values) = some (before, rest) →
          text = (splitSuffix (t.filled values)).2.apply (String.ofList (trim before))) := by
  rw [run?_of_not_selects hscript hspan hselects, Option.map_eq_some_iff, Prod.exists]
  constructor
  · rintro ⟨values, session', hvalues, heq⟩
    obtain ⟨rfl, rfl⟩ := Prod.mk.inj heq
    exact ⟨values, hvalues, plainResult_of_absent, fun _ _ => plainResult_of_cut?⟩
  · rintro ⟨values, hvalues, hnone, hcut⟩
    refine ⟨values, session, hvalues, Prod.ext ?_ rfl⟩
    -- the two conditions tell the result apart, for a text has the mark or has it not
    cases h : cut? suffixMark (t.filled values) with
    | none =>
      have hno := cut?_eq_none_iff.mp h
      exact (plainResult_of_absent hno).trans (hnone hno).symm
    | some cut => exact (plainResult_of_cut? h).trans (hcut cut.1 cut.2 h).symm

/-! ### A value that is cut -/

/-- A text with a template behind it. -/
def cutRule : List Char := "x\x7b\x7bv\x7d\x7d".toList

/-- The rule on an empty page, with a value for its template in the session. -/
def cutTask (value : String) : Task :=
  ⟨⟨[("v", value)]⟩, (Document.ofHtml "").root, cutRule⟩

theorem spans_cutTask (value : String) :
    spans templateTags (trim (cutTask value).rule) = ⟨[(['x'], ['v'])], []⟩ := by
  change spans templateTags (trim cutRule) = _
  cbv

theorem hasScript_cutTask (value : String) : hasScript (cutTask value).rule = false := by
  change hasScript cutRule = _
  cbv

theorem hasSpan_cutTask (value : String) :
    (spans templateTags (trim (cutTask value).rule)).hasSpan = true := by
  rw [spans_cutTask]
  rfl

theorem selects_cutTask (value : String) : selects (trim (cutTask value).rule) = false := by
  change selects (trim cutRule) = _
  cbv

theorem resolve_cutTask (options : Options) (depth : Nat) (value : String) :
    ((cutTask value).resolve options depth).run (cutTask value).session =
      some ([some value.toList], (cutTask value).session) := by
  have hvalue : (resolveTemplate options (evalText options depth) (cutTask value).node ['v']).run
      (cutTask value).session = some (some value.toList, (cutTask value).session) :=
    run_resolveTemplate_of_key (by decide) rfl _ _
  rw [Task.resolve, spans_cutTask, Spans.inners, List.map_cons, List.mapM_cons,
    run_bind_eq_some_iff]
  exact ⟨_, _, hvalue, rfl⟩

theorem filled_cutTask (value : String) :
    (cutTask value).filled [some value.toList] = 'x' :: value.toList := by
  rw [Task.filled, spans_cutTask]
  simp [Spans.filledWith]

/-- A value without `##` stands in the result as it is. -/
theorem cutRule_keeps :
    (cutTask "b").run? {} 1 = some ("xb", (cutTask "b").session) := by
  refine (run?_eq_some_iff_filled (hasScript_cutTask "b") (hasSpan_cutTask "b")
    (selects_cutTask "b")).mpr ⟨_, resolve_cutTask {} 0 "b", fun _ => ?_, fun before rest hcut => ?_⟩
  · rw [filled_cutTask]
    rfl
  · rw [filled_cutTask] at hcut
    cases hcut

/-- **A value can be cut**: of `a##b` after `x`, only `a` is in the result. -/
theorem cutRule_loses :
    ¬ suffixMark <:+: cutRule ∧
      ∃ values, ((cutTask "a##b").resolve {} 0).run (cutTask "a##b").session =
        some (values, (cutTask "a##b").session) ∧
      (cutTask "a##b").filled values = "xa##b".toList ∧
      (cutTask "a##b").run? {} 1 = some ("xa", (cutTask "a##b").session) := by
  refine ⟨by rw [← cut?_eq_none_iff]; rfl, _, resolve_cutTask {} 0 "a##b", filled_cutTask _, ?_⟩
  rw [run?_of_not_selects (hasScript_cutTask _) (hasSpan_cutTask _) (selects_cutTask _),
    resolve_cutTask, Option.map_some, filled_cutTask]
  have hsplit : splitSuffix ('x' :: "a##b".toList) = ("xa".toList, ⟨['b'], [], false⟩) := by cbv
  rw [plainResult, hsplit]
  rfl

end Scrape.Evaluate
