import Mathlib.Logic.Relation
import Scrape.Proofs.Evaluate.Calls

/-!
# Evaluate — Failing

Scripts that fail.  A script that fails and leaves the session as it is, gives the value before it,
as if no scripts were run, and a template of it stays as it is.  The scripts that an evaluation
runs are those of the segments of its rules and those of their templates, each with the session and
on the value that what comes before it has left (`Runs`).

Main statement (`eq_of_allFail`): where all scripts that are run fail and leave the session as it is,
a rule has the text, the nodes and the session that it has if no scripts are run.
-/

namespace Scrape.Evaluate

open Relation (ReflTransGen)
open Scrape.Rule (Segment Spans hasScript maxTemplateDepth segments spanDepth spans)
open Scrape.Text (trim)

/-- A script to run, on a value and with a session. -/
structure ScriptRun where
  session : Session
  source : List Char
  base : Script.Value

/-- A script fails, and leaves the session as it is. -/
def ScriptRun.Fails (options : Options) (x : ScriptRun) : Prop :=
  ∃ e, Script.run x.source x.base options.baseUrl? x.session options.stepLimit =
    (.error e, x.session)

/-- What stands in a template is run as a script. -/
def IsRun (session : Session) (body : List Char) : Prop :=
  spanDepth templateTags (trim body) < maxTemplateDepth ∧
    session.get? (String.ofList (trim body)) = none ∧ isRule (trim body) = false

/-- The scripts that a task runs, without those of the rules that it calls: those of its segments,
on the value of the segments before, and those of the templates of its texts. -/
inductive Runs (options : Options) (t : Task) : ScriptRun → Prop where
  | segment {before after : List Segment} {source : List Char} {depth : Nat}
      {value? : Option Script.Value} {session : Session} :
      hasScript t.rule = true → segments t.rule = before ++ .script source :: after →
      (before.foldlM (segmentStep options (evalText options depth) t.node) none).run t.session =
        some (value?, session) →
      Runs options t ⟨session, source, value?.getD (.string t.node.outer)⟩
  | template {p : Task} {before after : List (List Char × List Char)} {lead body done : List Char}
      {depth : Nat} {session : Session} :
      Plain options t p →
      (spans templateTags (trim p.rule)).spans = before ++ (lead, body) :: after →
      ((Spans.mk before []).fillM templateTags
        (resolveTemplate options (evalText options depth) p.node)).run p.session =
          some (done, session) →
      IsRun session body →
      Runs options t ⟨session, trim body, .string p.node.outer⟩

/-- All scripts that the evaluation of a task runs fail, and leave the session as it is. -/
def AllFail (options : Options) (t : Task) : Prop :=
  ∀ u x, ReflTransGen (Calls options) t u → Runs options u x → x.Fails options

/-- The options with which scripts are run. -/
def withScripts (options : Options) : Options := { options with scripts := true }

/-- The options with which no scripts are run. -/
def withoutScripts (options : Options) : Options := { options with scripts := false }

/-! ### A script that fails -/

theorem run_runScript_of_fails {options : Options} {x : ScriptRun} (h : x.Fails options) :
    (runScript options x.source x.base).run x.session = some (none, x.session) := by
  obtain ⟨e, he⟩ := h
  have hrun : (runScript options x.source x.base).run x.session =
      let result := Script.run x.source x.base options.baseUrl? x.session options.stepLimit
      some (result.1.toOption, result.2) := rfl
  rw [hrun, he]
  rfl

/-- A script that is not run, or fails, leaves the value before it. -/
theorem run_evalSegment_of_fails {options : Options} {n : Node} {before? : Option Script.Value}
    {source : List Char} {session : Session}
    (h : options.scripts = true →
      (ScriptRun.mk session source (before?.getD (.string n.outer))).Fails options) (inner : Inner) :
    (evalSegment options inner n before? (.script source)).run session =
      some (before?.getD (.string n.outer), session) := by
  unfold evalSegment
  cases hscripts : options.scripts with
  | false => rfl
  | true =>
    have hrun := run_runScript_of_fails (h hscripts)
    dsimp only at hrun ⊢
    rw [if_pos rfl, StateT.run_bind, hrun]
    rfl

/-- A template of a script that is not run, or fails, stays as it is. -/
theorem run_resolveTemplate_of_fails {options : Options} {n : Node} {body : List Char}
    {session : Session} (hrun : IsRun session body)
    (h : options.scripts = true →
      (ScriptRun.mk session (trim body) (.string n.outer)).Fails options) (inner : Inner) :
    (resolveTemplate options inner n body).run session = some (none, session) := by
  obtain ⟨hdeep, hkey, hrule⟩ := hrun
  rw [resolveTemplate, if_neg (Nat.not_le_of_lt hdeep)]
  simp only [StateT.run_bind, StateT.run_get, Option.pure_def, Option.bind_eq_bind,
    Option.bind_some, hkey, hrule, if_neg Bool.false_ne_true]
  cases hscripts : options.scripts with
  | false => rfl
  | true =>
    have hrun := run_runScript_of_fails (h hscripts)
    dsimp only at hrun
    simp only [Bool.not_true, if_neg Bool.false_ne_true, StateT.run_bind, hrun]
    rfl

/-- A template that is neither a rule nor a script to run does not depend on the options. -/
theorem run_resolveTemplate_of_not_isRun {body : List Char} {session : Session}
    (hcalled : ¬ IsCalled session body) (hrun : ¬ IsRun session body) (n : Node) :
    ∃ value?, ∀ options inner,
      (resolveTemplate options inner n body).run session = some (value?, session) := by
  by_cases hdeep : spanDepth templateTags (trim body) < maxTemplateDepth
  · cases hkey : session.get? (String.ofList (trim body)) with
    | some value =>
      exact ⟨some value.toList, fun options inner => run_resolveTemplate_of_key hdeep hkey inner n⟩
    | none =>
      cases hrule : isRule (trim body) with
      | true => exact absurd ⟨hdeep, hkey, hrule⟩ hcalled
      | false => exact absurd ⟨hdeep, hkey, hrule⟩ hrun
  · refine ⟨none, fun options inner => ?_⟩
    rw [resolveTemplate, if_pos (Nat.le_of_not_lt hdeep)]
    rfl

/-- What is selected does not depend on whether scripts are run. -/
theorem selected_withScripts (options : Options) (n : Node) (session : Session)
    (rule : List Char) :
    selected (withScripts options) n session rule = selected (withoutScripts options) n session rule :=
  rfl

theorem selectElements_withScripts (options : Options) (n : Node) (rule : List Char) :
    selectElements (withScripts options) n rule = selectElements (withoutScripts options) n rule :=
  rfl

/-! ### With and without scripts -/

section

variable {options : Options} {t : Task} {depth : Nat}
  (hcalls : ∀ u, Calls (withScripts options) t u →
    u.run? (withScripts options) depth = u.run? (withoutScripts options) depth)
  (hfails : ∀ x, Runs (withScripts options) t x → x.Fails (withScripts options))

include hcalls

theorem run_evalDirectives_of_fails {p q : Task} (hp : Plain (withScripts options) t p)
    (hq : Scans (withScripts options) p q) :
    (evalDirectives (withScripts options) (evalText (withScripts options) depth) q.node
        q.rule).run q.session =
      (evalDirectives (withoutScripts options) (evalText (withoutScripts options) depth) q.node
        q.rule).run q.session := by
  rw [run_evalDirectives, run_evalDirectives]
  simp only [selected_withScripts]
  refine congrArg _ (run_foldlM_congr fun before pair after hpairs _ s hbefore => ?_)
  refine run_bind_congr (hcalls ⟨s, q.node, pair.2⟩ ?_) fun _ _ _ => rfl
  exact .inr ⟨pair.1, p, q, hp, hq, .mk hpairs hbefore⟩

include hfails

theorem fill?_of_fails {p : Task} (hp : Plain (withScripts options) t p) :
    p.fill? (withScripts options) depth = p.fill? (withoutScripts options) depth := by
  rw [Task.fill?, Task.fill?, Spans.fillM_eq_foldlM, Spans.fillM_eq_foldlM]
  refine run_bind_congr ?_ fun _ _ _ => rfl
  refine run_foldlM_congr fun before span after hspans done s hbefore => ?_
  refine run_bind_congr ?_ fun _ _ _ => rfl
  have hfilled := run_fillM_eq_some_iff (t := ⟨before, []⟩).mpr ⟨done, hbefore, rfl⟩
  by_cases hcalled : IsCalled s span.2
  · rw [run_resolveTemplate_of_isCalled hcalled, run_resolveTemplate_of_isCalled hcalled]
    exact congrArg _ (hcalls ⟨s, p.node, trim span.2⟩ (.inl ⟨p, hp, .mk hspans hfilled hcalled⟩))
  · by_cases hrun : IsRun s span.2
    · have hx := hfails _ (.template hp hspans hfilled hrun)
      rw [run_resolveTemplate_of_fails hrun fun _ => hx, run_resolveTemplate_of_fails hrun]
      exact fun h => absurd h Bool.false_ne_true
    · obtain ⟨value?, hvalue⟩ := run_resolveTemplate_of_not_isRun hcalled hrun p.node
      rw [hvalue, hvalue]

theorem runPlain?_of_fails {p : Task} (hp : Plain (withScripts options) t p) :
    p.runPlain? (withScripts options) depth = p.runPlain? (withoutScripts options) depth := by
  cases hspan : (spans templateTags (trim p.rule)).hasSpan with
  | false =>
    rw [Task.runPlain?, Task.runPlain?, evalPlain_of_not_hasSpan hspan,
      evalPlain_of_not_hasSpan hspan]
    split
    · rfl
    · exact run_evalDirectives_of_fails hcalls hp (.plain hspan)
  | true =>
    rw [Task.runPlain?, Task.runPlain?, evalPlain_of_hasSpan hspan, evalPlain_of_hasSpan hspan]
    refine run_bind_congr (fill?_of_fails hcalls hfails hp) fun text s hfill => ?_
    unfold evalFilled
    split
    · next hselects => exact run_evalDirectives_of_fails hcalls hp (.filled hspan hselects hfill)
    · rfl

/-- The values of the segments of a rule with scripts. -/
theorem run_segments_of_fails (hscript : hasScript t.rule = true) :
    ((segments t.rule).foldlM (segmentStep (withScripts options)
        (evalText (withScripts options) depth) t.node) none).run t.session =
      ((segments t.rule).foldlM (segmentStep (withoutScripts options)
        (evalText (withoutScripts options) depth) t.node) none).run t.session := by
  refine run_foldlM_congr fun before segment after hsegments value? s hbefore => ?_
  rw [segmentStep, segmentStep, map_eq_pure_bind, map_eq_pure_bind]
  refine run_bind_congr ?_ fun _ _ _ => rfl
  cases segment with
  | rule text =>
    rw [evalSegment_rule, evalSegment_rule]
    refine run_bind_congr ?_ fun _ _ _ => rfl
    exact runPlain?_of_fails hcalls hfails (.segment hscript hsegments hbefore)
  | script source =>
    have hx := hfails _ (.segment hscript hsegments hbefore)
    rw [run_evalSegment_of_fails fun _ => hx, run_evalSegment_of_fails]
    exact fun h => absurd h Bool.false_ne_true

theorem run?_succ_of_fails :
    t.run? (withScripts options) (depth + 1) = t.run? (withoutScripts options) (depth + 1) := by
  rw [Task.run?, Task.run?, evalText, evalText]
  cases hscript : hasScript t.rule with
  | false =>
    rw [evalRule_of_not_hasScript hscript, evalRule_of_not_hasScript hscript]
    exact runPlain?_of_fails hcalls hfails (.whole hscript)
  | true =>
    rw [run_evalRule_of_hasScript hscript, run_evalRule_of_hasScript hscript,
      run_segments_of_fails hcalls hfails hscript]

end

theorem AllFail.of_calls {options : Options} {t u : Task} (h : AllFail options t)
    (hu : Calls options t u) : AllFail options u :=
  fun v x hv hx => h v x (.head hu hv) hx

/-- To whatever depth its rules nest, a task does without scripts what it does with scripts that
all fail. -/
theorem run?_of_allFail {options : Options} (depth : Nat) {t : Task}
    (h : AllFail (withScripts options) t) :
    t.run? (withScripts options) depth = t.run? (withoutScripts options) depth := by
  induction depth generalizing t with
  | zero => rfl
  | succ depth ih =>
    exact run?_succ_of_fails (fun u hu => ih (h.of_calls hu)) fun x hx => h t x .refl hx

theorem run_evalSegments (options : Options) (inner : Inner) (n : Node) (l : List Segment)
    (s : Session) :
    (evalSegments options inner n l).run s =
      ((l.foldlM (segmentStep options inner n) none).run s).map
        fun r => (r.1.getD .undefined, r.2) := by
  change ((l.foldlM (segmentStep options inner n) none) >>= _).run s = _
  rw [StateT.run_bind]
  cases (l.foldlM (segmentStep options inner n) none).run s <;> rfl

/-- **Scripts that fail are as good as none.**  Where all scripts that the evaluation of a rule runs
fail and leave the session as it is, the rule has the text and leaves the session that it has and
leaves if no scripts are run; and the same is true of its nodes, for which no scripts are run unless
the rule carries some. -/
theorem eq_of_allFail (options : Options) (session : Session) (n : Node) (rule : List Char) :
    (AllFail (withScripts options) ⟨session, n, rule⟩ →
      text? (withScripts options) session n rule = text? (withoutScripts options) session n rule) ∧
    ((hasScript (listMark rule).2 = true →
        AllFail (withScripts options) ⟨session, n, (listMark rule).2⟩) →
      elements? (withScripts options) session n rule =
        elements? (withoutScripts options) session n rule) := by
  refine ⟨fun h => run?_of_allFail maxRuleDepth h, fun h => ?_⟩
  unfold elements?
  generalize listMark rule = mark at h ⊢
  obtain ⟨reversed, list⟩ := mark
  refine congrArg (Option.map _) ?_
  cases hscript : hasScript list with
  | false =>
    dsimp only
    rw [if_neg Bool.false_ne_true, if_neg Bool.false_ne_true, selectElements_withScripts]
  | true =>
    have hfail := h hscript
    have hsegments := run_segments_of_fails
      (fun u hu => run?_of_allFail maxRuleDepth (hfail.of_calls hu))
      (fun x hx => hfail _ x .refl hx) hscript
    dsimp only at hsegments ⊢
    rw [if_pos rfl, if_pos rfl, run_evalSegments, run_evalSegments, hsegments]

/-! ### A script that is none -/

/-- A rule with a script after it whose text is no script. -/
def failingRule : List Char := "$.a<js>)(</js>".toList

/-- A value with a text at `$.a`. -/
def failingRoot : Node := .json (.object [("a", .string "x")]) 0

/-- The rule on the value, with nothing in the session. -/
def failingTask : Task := ⟨Session.empty, failingRoot, failingRule⟩

theorem segments_failingRule :
    segments failingRule = [.rule "$.a".toList, .script ")(".toList] := by
  decide +kernel

theorem fails_of_malformed {options : Options} {x : ScriptRun} (h : x.source = ")(".toList) :
    x.Fails options := by
  obtain ⟨e, he⟩ : ∃ e, Script.parse ")(".toList = .error e := by
    have hok : (Script.parse ")(".toList).isOk = false := by decide +kernel
    cases hparse : Script.parse ")(".toList with
    | error e => exact ⟨e, rfl⟩
    | ok body =>
      rw [hparse] at hok
      cases hok
  refine ⟨.parse e, ?_⟩
  rw [Script.run, Script.runWith, h, he]
  rfl

theorem Plain.of_failingTask {options : Options} {p : Task} (hp : Plain options failingTask p) :
    p.rule = "$.a".toList := by
  cases hp with
  | whole hscript => exact absurd hscript (by decide +kernel)
  | segment _ hsegments _ =>
    have hmem : .rule _ ∈ segments failingRule :=
      hsegments ▸ List.mem_append_right _ List.mem_cons_self
    rw [segments_failingRule] at hmem
    simpa using hmem

/-- The one script that `failingRule` runs fails. -/
theorem allFail_failingTask (options : Options) : AllFail options failingTask := by
  have hscript : hasScript "$.a".toList = false := by decide
  have hspans : (spans templateTags (trim "$.a".toList)).spans = [] := by decide +kernel
  have hflat : ∀ p, Plain options failingTask p → ∀ u, ¬ Calls options p u := by
    intro p hp u
    have hrule := hp.of_failingTask
    refine not_calls_of_flat (by rw [hrule, hscript]) (by rw [hrule, Spans.hasSpan, hspans]; rfl) ?_
    rw [hrule]
    decide +kernel
  have hcalls : ∀ u, ¬ Calls options failingTask u := by
    rintro u (⟨p, hp, hu⟩ | ⟨key, p, q, hp, hq, hu⟩)
    · exact hflat p hp u (.inl ⟨p, .whole (by rw [hp.of_failingTask, hscript]), hu⟩)
    · exact hflat p hp u (.inr ⟨key, p, q, .whole (by rw [hp.of_failingTask, hscript]), hq, hu⟩)
  intro u x hu hx
  cases hu using ReflTransGen.head_induction_on with
  | head hu _ => exact absurd hu (hcalls _)
  | refl =>
    cases hx with
    | segment _ hsegments _ =>
      refine fails_of_malformed ?_
      have hmem : .script _ ∈ segments failingRule :=
        hsegments ▸ List.mem_append_right _ List.mem_cons_self
      rw [segments_failingRule] at hmem
      simpa using hmem
    | template hp hspan _ _ =>
      rw [hp.of_failingTask, hspans] at hspan
      simp at hspan

/-- The rule has the text before the script, as if none were run. -/
theorem failingRule_text :
    (text? (withScripts {}) Session.empty failingRoot failingRule).map Prod.fst = some "x" ∧
      text? (withScripts {}) Session.empty failingRoot failingRule =
        text? (withoutScripts {}) Session.empty failingRoot failingRule ∧
      elements? (withScripts {}) Session.empty failingRoot failingRule =
        elements? (withoutScripts {}) Session.empty failingRoot failingRule := by
  have hmark : (listMark failingRule).2 = failingRule := by decide +kernel
  refine ⟨by decide +kernel, ?_, ?_⟩
  · exact (eq_of_allFail {} Session.empty failingRoot failingRule).1 (allFail_failingTask _)
  · refine (eq_of_allFail {} Session.empty failingRoot failingRule).2 fun _ => ?_
    rw [hmark]
    exact allFail_failingTask _

end Scrape.Evaluate
