import Scrape.Proofs.Evaluate.Run

/-!
# Evaluate — Extend

The evaluation of a rule takes that of the rules within as a parameter.  It is monotone in it: where
the rules within have more results, the rule has its results still (`evalRule_extends`).  So a rule
that has a result at some depth has it at every greater depth (`evalText_mono`).
-/

namespace Scrape.Evaluate

open Scrape.Rule (Segment Spans hasScript segments spans)
open Scrape.Text (trim)

variable {options : Options}

/-! ### More results within -/

section

variable {inner inner' : Inner} (h : ∀ n rule, Extends (inner n rule) (inner' n rule)) (n : Node)

include h

theorem resolveTemplate_extends (body : List Char) :
    Extends (resolveTemplate options inner n body) (resolveTemplate options inner' n body) := by
  intro s r hr
  by_cases hcalled : IsCalled s body
  · rw [run_resolveTemplate_of_isCalled hcalled] at hr ⊢
    obtain ⟨value, hvalue, rfl⟩ := Option.map_eq_some_iff.mp hr
    exact Option.map_eq_some_iff.mpr ⟨value, h n _ s value hvalue, rfl⟩
  · obtain ⟨value?, s', _, hrun⟩ := run_resolveTemplate_of_not_isCalled hcalled n
    rw [hrun] at hr ⊢
    exact hr

theorem fillM_extends (t : Spans) :
    Extends (t.fillM templateTags (resolveTemplate options inner n))
      (t.fillM templateTags (resolveTemplate options inner' n)) := by
  rw [Spans.fillM_eq_foldlM, Spans.fillM_eq_foldlM]
  refine .bind (.foldlM (fun done span => ?_) _ _) fun _ => .refl _
  exact (resolveTemplate_extends h n span.2).bind fun _ => .refl _

theorem putPair_extends (pair : String × List Char) :
    Extends (putPair inner n pair) (putPair inner' n pair) :=
  (h n pair.2).bind fun _ => .refl _

theorem evalDirectives_extends (rule : List Char) :
    Extends (evalDirectives options inner n rule) (evalDirectives options inner' n rule) := by
  rw [evalDirectives, evalDirectives, putAll_eq_foldlM, putAll_eq_foldlM]
  exact .bind (.foldlM (fun _ => putPair_extends h n) _ _) fun _ => .refl _

theorem evalFilled_extends (rule filled : List Char) :
    Extends (evalFilled options inner n rule filled) (evalFilled options inner' n rule filled) := by
  unfold evalFilled
  split
  · exact evalDirectives_extends h n filled
  · exact .refl _

theorem evalPlain_extends (rule : List Char) :
    Extends (evalPlain options inner n rule) (evalPlain options inner' n rule) := by
  cases hspan : (spans templateTags (trim rule)).hasSpan with
  | false =>
    rw [evalPlain_of_not_hasSpan hspan, evalPlain_of_not_hasSpan hspan]
    split
    · exact .refl _
    · exact evalDirectives_extends h n _
  | true =>
    rw [evalPlain_of_hasSpan hspan, evalPlain_of_hasSpan hspan]
    exact (fillM_extends h n _).bind (evalFilled_extends h n rule)

theorem evalSegment_extends (before? : Option Script.Value) (segment : Segment) :
    Extends (evalSegment options inner n before? segment)
      (evalSegment options inner' n before? segment) := by
  cases segment with
  | rule text =>
    rw [evalSegment_rule, evalSegment_rule]
    exact (evalPlain_extends h _ text).bind fun _ => .refl _
  | script source => exact .refl _

theorem segmentStep_extends (before? : Option Script.Value) (segment : Segment) :
    Extends (segmentStep options inner n before? segment)
      (segmentStep options inner' n before? segment) :=
  (evalSegment_extends h n before? segment).map some

theorem evalRule_extends (rule : List Char) :
    Extends (evalRule options inner n rule) (evalRule options inner' n rule) := by
  intro s r hr
  cases hscript : hasScript rule with
  | false =>
    rw [evalRule_of_not_hasScript hscript] at hr ⊢
    exact evalPlain_extends h n rule s r hr
  | true =>
    rw [run_evalRule_of_hasScript hscript] at hr ⊢
    obtain ⟨last, hlast, rfl⟩ := Option.map_eq_some_iff.mp hr
    have hloop := Extends.foldlM (segmentStep_extends h n) (segments rule) none s last hlast
    exact Option.map_eq_some_iff.mpr ⟨last, hloop, rfl⟩

end

/-! ### More depth -/

theorem evalText_extends_succ (options : Options) (depth : Nat) :
    ∀ n rule, Extends (evalText options depth n rule) (evalText options (depth + 1) n rule) := by
  induction depth with
  | zero => exact fun n rule s r h => by cases h
  | succ depth ih => exact fun n rule => evalRule_extends ih n rule

/-- **More depth**: a rule keeps its result. -/
theorem evalText_mono (options : Options) {depth more : Nat} (hle : depth ≤ more) (n : Node)
    (rule : List Char) :
    Extends (evalText options depth n rule) (evalText options more n rule) := by
  induction hle with
  | refl => exact .refl _
  | step _ ih => exact fun s r h => evalText_extends_succ options _ n rule s r (ih s r h)

theorem segmentStep_mono (options : Options) (n : Node) {depth more : Nat} (hle : depth ≤ more)
    (before? : Option Script.Value) (segment : Segment) :
    Extends (segmentStep options (evalText options depth) n before? segment)
      (segmentStep options (evalText options more) n before? segment) :=
  segmentStep_extends (evalText_mono options hle) n before? segment

/-- A step of the loop that fills in templates. -/
def templateStep (options : Options) (n : Node) (depth : Nat) :
    List Char → List Char × List Char → Eval (List Char) :=
  Spans.fillStep templateTags (resolveTemplate options (evalText options depth) n)

theorem templateStep_mono (options : Options) (n : Node) {depth more : Nat} (hle : depth ≤ more)
    (done : List Char) (span : List Char × List Char) :
    Extends (templateStep options n depth done span) (templateStep options n more done span) :=
  (resolveTemplate_extends (evalText_mono options hle) n span.2).bind fun _ => .refl _

theorem putPair_mono (options : Options) (n : Node) {depth more : Nat} (hle : depth ≤ more)
    (pair : String × List Char) :
    Extends (putPair (evalText options depth) n pair) (putPair (evalText options more) n pair) :=
  putPair_extends (evalText_mono options hle) n pair

/-- Templates are filled in when the loop over them comes to an end. -/
theorem run_fillM_eq_some_iff {n : Node} {depth : Nat} {t : Spans} {s s' : Session}
    {text : List Char} :
    (t.fillM templateTags (resolveTemplate options (evalText options depth) n)).run s =
        some (text, s') ↔
      ∃ done, (t.spans.foldlM (templateStep options n depth) []).run s = some (done, s') ∧
        text = done ++ t.tail := by
  rw [Spans.fillM_eq_foldlM, run_bind_eq_some_iff]
  constructor
  · rintro ⟨done, s₁, hdone, hr⟩
    obtain ⟨rfl, rfl⟩ := Prod.mk.inj (Option.some.inj hr)
    exact ⟨done, hdone, rfl⟩
  · rintro ⟨done, hdone, rfl⟩
    exact ⟨done, s', hdone, rfl⟩

/-- What templates are filled in with does not depend on the depth. -/
theorem fillM_unique {n : Node} {t : Spans} {s : Session} {depth depth' : Nat}
    {x y : List Char × Session}
    (hx : (t.fillM templateTags (resolveTemplate options (evalText options depth) n)).run s =
      some x)
    (hy : (t.fillM templateTags (resolveTemplate options (evalText options depth') n)).run s =
      some y) : x = y := by
  have hx := fillM_extends (evalText_mono options (Nat.le_max_left depth depth')) n t s x hx
  have hy := fillM_extends (evalText_mono options (Nat.le_max_right depth depth')) n t s y hy
  exact Option.some.inj (hx.symm.trans hy)

end Scrape.Evaluate
