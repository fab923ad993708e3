import Scrape.Evaluate.Basic
import Scrape.Proofs.Evaluate.Directive
import Scrape.Proofs.Loop
import Scrape.Proofs.Rule.Agreement
import Scrape.Proofs.Rule.Fill

/-!
# Evaluate — Run

What each part of an evaluation comes to, from the evaluation of the rules within it.  A rule with
scripts is a loop over its segments (`run_evalRule_of_hasScript`); a rule without is a loop over its
templates (`evalPlain_of_hasSpan`), and then one over the pairs of its directives
(`run_evalDirectives`).  A template is resolved by a rule within (`run_resolveTemplate_of_isCalled`)
or without one (`run_resolveTemplate_of_not_isCalled`).  A rule without scripts is a row of segments
as well, of one at most (`evalRule_eq_evalFrom`).
-/

namespace Scrape.Evaluate

open Scrape.Rule (Segment Spans hasScript maxTemplateDepth segments spanDepth spans)
open Scrape.Text (trim)

variable {options : Options}

/-! ### Templates -/

/-- What stands in a template is evaluated as a rule. -/
def IsCalled (session : Session) (body : List Char) : Prop :=
  spanDepth templateTags (trim body) < maxTemplateDepth ∧
    session.get? (String.ofList (trim body)) = none ∧ isRule (trim body) = true

theorem run_resolveTemplate_of_isCalled {session : Session} {body : List Char}
    (h : IsCalled session body) (inner : Inner) (n : Node) :
    (resolveTemplate options inner n body).run session =
      ((inner n (trim body)).run session).map fun r => (some r.1.toList, r.2) := by
  obtain ⟨hdeep, hkey, hrule⟩ := h
  rw [resolveTemplate, if_neg (Nat.not_le_of_lt hdeep)]
  simp only [StateT.run_bind, StateT.run_get, Option.pure_def, Option.bind_eq_bind,
    Option.bind_some, hkey, hrule, if_true]
  cases (inner n (trim body)).run session <;> rfl

theorem run_resolveTemplate_of_key {session : Session} {body : List Char} {value : String}
    (hdeep : spanDepth templateTags (trim body) < maxTemplateDepth)
    (hkey : session.get? (String.ofList (trim body)) = some value) (inner : Inner) (n : Node) :
    (resolveTemplate options inner n body).run session = some (some value.toList, session) := by
  rw [resolveTemplate, if_neg (Nat.not_le_of_lt hdeep)]
  simp only [StateT.run_bind, StateT.run_get, Option.pure_def, Option.bind_eq_bind,
    Option.bind_some, hkey]
  rfl

/-- A template that is no rule is resolved at once; without scripts, that leaves the session as it
is. -/
theorem run_resolveTemplate_of_not_isCalled {session : Session} {body : List Char}
    (h : ¬ IsCalled session body) (n : Node) :
    ∃ value? session', (options.scripts = false → session' = session) ∧
      ∀ inner, (resolveTemplate options inner n body).run session = some (value?, session') := by
  unfold resolveTemplate
  dsimp only
  split
  · exact ⟨none, session, fun _ => rfl, fun _ => rfl⟩
  · next hdeep =>
    simp only [StateT.run_bind, StateT.run_get, Option.pure_def, Option.bind_eq_bind,
      Option.bind_some]
    split
    · next value hkey => exact ⟨some value.toList, session, fun _ => rfl, fun _ => rfl⟩
    · next hkey =>
      have hrule : isRule (trim body) ≠ true := fun hrule =>
        h ⟨Nat.lt_of_not_le hdeep, hkey, hrule⟩
      simp only [if_neg hrule]
      cases hscripts : options.scripts with
      | false => exact ⟨none, session, fun _ => rfl, fun _ => rfl⟩
      | true => exact ⟨_, _, fun hno => (Bool.false_ne_true hno.symm).elim, fun _ => rfl⟩

/-! ### Directives -/

/-- Puts the result of a rule under a key. -/
def putPair (inner : Inner) (n : Node) (pair : String × List Char) : Eval Unit := do
  let value ← inner n pair.2
  modify fun s => s.put pair.1 value

theorem forIn_putPair (inner : Inner) (n : Node) (pairs : List (String × List Char)) :
    (forIn pairs PUnit.unit fun pair _ => do
      let value ← inner n pair.2
      (fun _ => ForInStep.yield PUnit.unit) <$> modify fun s => s.put pair.1 value) =
      pairs.foldlM (fun _ pair => putPair inner n pair) () := by
  induction pairs with
  | nil => rfl
  | cons pair pairs ih =>
    simp [ih, putPair]

/-- Directives are carried out pair by pair. -/
theorem putAll_eq_foldlM (inner : Inner) (n : Node)
    (directives : List (List Char × List (String × List Char))) :
    putAll inner n directives =
      (directives.flatMap Prod.snd).foldlM (fun _ pair => putPair inner n pair) () := by
  induction directives with
  | nil => rfl
  | cons directive directives ih =>
    obtain ⟨before, pairs⟩ := directive
    rw [putAll, ih, List.flatMap_cons, List.foldlM_append]
    simp [forIn_putPair]

/-- What a rule without directives that put selects. -/
def selected (options : Options) (n : Node) (session : Session) (rule : List Char) : String :=
  let (main, suffix) := splitSuffix (withGets session rule)
  let main := trim main
  if main.isEmpty then "" else suffix.apply (selectText options n main)

/-- After its directives, a rule changes nothing in the session. -/
theorem run_evalDirectives (options : Options) (inner : Inner) (n : Node) (rule : List Char)
    (s : Session) :
    (evalDirectives options inner n rule).run s =
      (((puts rule).pairs.foldlM (fun _ pair => putPair inner n pair) ()).run s).map
        fun r => (selected options n r.2 (puts rule).rule, r.2) := by
  rw [evalDirectives, putAll_eq_foldlM, ← Puts.pairs, StateT.run_bind]
  cases ((puts rule).pairs.foldlM (fun _ pair => putPair inner n pair) ()).run s with
  | none => rfl
  | some r =>
    obtain ⟨_, s'⟩ := r
    simp only [Option.bind_eq_bind, Option.bind_some, Option.map_some, selected, StateT.run_bind,
      StateT.run_get, Option.pure_def]
    split
    · rfl
    · rfl

theorem run_evalDirectives_of_pair (options : Options) {inner : Inner} {n : Node}
    {rule put : List Char} {key value : String} {s s' : Session}
    (hpairs : (puts rule).pairs = [(key, put)]) (hvalue : (inner n put).run s = some (value, s')) :
    (evalDirectives options inner n rule).run s =
      some (selected options n (s'.put key value) (puts rule).rule, s'.put key value) := by
  rw [run_evalDirectives, hpairs, List.foldlM_cons, Option.map_eq_some_iff]
  refine ⟨((), s'.put key value), run_bind_eq_some_iff.mpr ⟨(), s'.put key value, ?_, rfl⟩, rfl⟩
  exact run_bind_eq_some_iff.mpr ⟨value, s', hvalue, rfl⟩

/-! ### Rules without scripts -/

/-- What becomes of a rule once its templates are filled in. -/
def evalFilled (options : Options) (inner : Inner) (n : Node) (rule filled : List Char) :
    Eval String :=
  if selects (trim rule) then evalDirectives options inner n filled
  else pure ((splitSuffix filled).2.apply (String.ofList (trim (splitSuffix filled).1)))

theorem evalPlain_of_hasSpan {rule : List Char}
    (hspan : (spans templateTags (trim rule)).hasSpan = true) (inner : Inner) (n : Node) :
    evalPlain options inner n rule = (do
      let filled ← (spans templateTags (trim rule)).fillM templateTags
        (resolveTemplate options inner n)
      evalFilled options inner n rule filled) := by
  have hne := List.isEmpty_eq_false_iff.mpr (Rule.ne_nil_of_hasSpan hspan)
  rw [evalPlain]
  simp only [hne, if_neg Bool.false_ne_true, hspan, if_true]
  rfl

theorem evalPlain_of_not_hasSpan {rule : List Char}
    (hspan : (spans templateTags (trim rule)).hasSpan = false) (inner : Inner) (n : Node) :
    evalPlain options inner n rule =
      if (trim rule).isEmpty then pure "" else evalDirectives options inner n (trim rule) := by
  rw [evalPlain]
  simp only [hspan, if_neg Bool.false_ne_true]

theorem selectText_of_json (options : Options) {n : Node} {rule : List Char} {value : Json}
    (hmode : Rule.mode rule n.isJson = .json) (hvalue : n.json? = some value) :
    selectText options n rule =
      JsonPath.text (JsonPath.unwrapBody value) (Rule.withoutTag rule) := by
  rw [selectText, hmode]
  simp only [hvalue]

/-! ### Rules with scripts -/

/-- The node that a segment is evaluated on: that of the rule, or the text of the value before. -/
def nodeAfter (n : Node) : Option Script.Value → Node
  | some v => (Document.ofText v.output).root
  | none   => n

theorem evalSegment_rule (options : Options) (inner : Inner) (n : Node)
    (before? : Option Script.Value) (text : List Char) :
    evalSegment options inner n before? (.rule text) = (do
      let value ← evalPlain options inner (nodeAfter n before?) text
      pure (.string value)) := by
  cases before? <;> rfl

/-- A step of the loop over the segments of a rule. -/
def segmentStep (options : Options) (inner : Inner) (n : Node) (before? : Option Script.Value)
    (segment : Segment) : Eval (Option Script.Value) :=
  some <$> evalSegment options inner n before? segment

theorem run_evalRule_of_hasScript {rule : List Char} (h : hasScript rule = true)
    (options : Options) (inner : Inner) (n : Node) (s : Session) :
    (evalRule options inner n rule).run s =
      (((segments rule).foldlM (segmentStep options inner n) none).run s).map
        fun r => ((r.1.getD .undefined).output, r.2) := by
  rw [evalRule, if_pos h, evalSegments]
  change ((((segments rule).foldlM (segmentStep options inner n) none) >>= _) >>= _).run s = _
  rw [StateT.run_bind, StateT.run_bind]
  cases ((segments rule).foldlM (segmentStep options inner n) none).run s <;> rfl

theorem evalRule_of_not_hasScript {rule : List Char} (h : hasScript rule = false)
    (options : Options) (inner : Inner) (n : Node) :
    evalRule options inner n rule = evalPlain options inner n rule := by
  rw [evalRule, h, if_neg Bool.false_ne_true]

/-- A script has a value; where none are run, the session stays as it is. -/
theorem run_evalSegment_script (n : Node) (before? : Option Script.Value) (source : List Char)
    (session : Session) :
    ∃ value session', (options.scripts = false → session' = session) ∧
      ∀ inner, (evalSegment options inner n before? (.script source)).run session =
        some (value, session') := by
  unfold evalSegment
  cases hscripts : options.scripts with
  | false => exact ⟨_, session, fun _ => rfl, fun _ => rfl⟩
  | true => exact ⟨_, _, fun hno => (Bool.false_ne_true hno.symm).elim, fun _ => rfl⟩

/-- What the segments of a rule make of the value before them, as a text. -/
def evalFrom (options : Options) (inner : Inner) (n : Node) (before? : Option Script.Value)
    (rule : List Char) : Eval String := do
  let value? ← (segments rule).foldlM (segmentStep options inner n) before?
  return (value?.getD .undefined).output

section

variable (options : Options) (inner : Inner) (n : Node)

theorem evalPlain_trim (rule : List Char) :
    evalPlain options inner n (trim rule) = evalPlain options inner n rule := by
  rw [evalPlain, evalPlain, Text.trim_trim]

theorem segmentStep_rule (before? : Option Script.Value) (text : List Char) :
    segmentStep options inner n before? (.rule text) = (do
      let value ← evalPlain options inner (nodeAfter n before?) text
      pure (some (.string value))) := by
  rw [segmentStep, evalSegment_rule, map_eq_pure_bind, bind_assoc]
  simp only [pure_bind]

/-- A rule without scripts is a row of one segment. -/
theorem evalRule_eq_evalFrom (rule : List Char) :
    evalRule options inner n rule = evalFrom options inner n none rule := by
  cases hscript : hasScript rule with
  | true =>
    rw [evalRule, if_pos hscript, evalSegments, bind_assoc]
    simp only [pure_bind]
    rfl
  | false =>
    rw [evalRule_of_not_hasScript hscript, evalFrom,
      Rule.segments_of_scriptless (Rule.scriptless_of_not_hasScript hscript), ← evalPlain_trim]
    cases hblank : (trim rule).isEmpty with
    | true =>
      rw [List.isEmpty_iff.mp hblank, Rule.textSegment, if_pos hblank]
      rfl
    | false =>
      rw [Rule.textSegment, if_neg (by simp [hblank]), List.foldlM_cons, segmentStep_rule]
      simp [nodeAfter, Script.Value.output, Script.Value.text]

end

end Scrape.Evaluate
