import Scrape.Proofs.Evaluate.Extend

/-!
# Evaluate — Calls

Which rules the evaluation of a rule comes to.  A rule without scripts is filled in, then scanned
for directives; the rules in its templates (`Holds`) and those that its directives put (`Directs`)
are evaluated in turn, each with the session that what comes before it has left.

Main statements: a rule that ends calls only rules that end at less depth (`Calls.exists_run?`), and
a rule ends when all rules that it calls do (`ends_of_calls`).
-/

namespace Scrape.Evaluate

open Scrape.Rule (Segment Spans hasScript segments spans)
open Scrape.Text (trim)

/-- A rule to evaluate, on a node and with a session. -/
structure Task where
  session : Session
  node : Node
  rule : List Char

/-- What a task gives when its rules nest to at most `depth`. -/
def Task.run? (options : Options) (depth : Nat) (t : Task) : Option (String × Session) :=
  (evalText options depth t.node t.rule).run t.session

/-- What a task without scripts gives when the rules within nest to at most `depth`. -/
def Task.runPlain? (options : Options) (depth : Nat) (t : Task) : Option (String × Session) :=
  (evalPlain options (evalText options depth) t.node t.rule).run t.session

/-- What the templates of a task are filled in to when the rules within nest to at most `depth`. -/
def Task.fill? (options : Options) (depth : Nat) (t : Task) : Option (List Char × Session) :=
  ((spans templateTags (trim t.rule)).fillM templateTags
    (resolveTemplate options (evalText options depth) t.node)).run t.session

/-- The task has a result. -/
def Task.Ends (options : Options) (t : Task) : Prop := ∃ depth r, t.run? options depth = some r

/-! ### From a rule to the rules within -/

section

variable (options : Options)

/-- A task comes to one without scripts: to itself, or to a segment of its rule, with the session
and on the node that the segments before it have left. -/
inductive Plain (t : Task) : Task → Prop where
  | whole : hasScript t.rule = false → Plain t t
  | segment {before after : List Segment} {text : List Char} {depth : Nat}
      {value? : Option Script.Value} {session : Session} :
      hasScript t.rule = true → segments t.rule = before ++ .rule text :: after →
      (before.foldlM (segmentStep options (evalText options depth) t.node) none).run t.session =
        some (value?, session) →
      Plain t ⟨session, nodeAfter t.node value?, text⟩

/-- A task without scripts comes to the rule in a template of it, with the session that filling in
the templates before has left. -/
inductive Fills (t : Task) : Task → Prop where
  | mk {before after : List (List Char × List Char)} {lead body done : List Char} {depth : Nat}
      {session : Session} :
      (spans templateTags (trim t.rule)).spans = before ++ (lead, body) :: after →
      ((Spans.mk before []).fillM templateTags
        (resolveTemplate options (evalText options depth) t.node)).run t.session =
          some (done, session) →
      IsCalled session body →
      Fills t ⟨session, t.node, trim body⟩

/-- A task without scripts comes to be scanned for directives, after its templates are filled in. -/
inductive Scans (t : Task) : Task → Prop where
  | plain : (spans templateTags (trim t.rule)).hasSpan = false →
      Scans t ⟨t.session, t.node, trim t.rule⟩
  | filled {text : List Char} {depth : Nat} {session : Session} :
      (spans templateTags (trim t.rule)).hasSpan = true → selects (trim t.rule) = true →
      t.fill? options depth = some (text, session) →
      Scans t ⟨session, t.node, text⟩

/-- Carrying out the directives of a scanned text comes to the rule of a key, with the session that
the pairs before have left. -/
inductive Directs (t : Task) (key : String) : Task → Prop where
  | mk {before after : List (String × List Char)} {rule : List Char} {depth : Nat}
      {session : Session} :
      (puts t.rule).pairs = before ++ (key, rule) :: after →
      (before.foldlM (fun _ => putPair (evalText options depth) t.node) ()).run t.session =
        some ((), session) →
      Directs t key ⟨session, t.node, rule⟩

/-- A task evaluates the rule in a template. -/
def Holds (t u : Task) : Prop := ∃ p, Plain options t p ∧ Fills options p u

/-- A task evaluates a rule to put its result under a key. -/
def PutsUnder (t : Task) (key : String) (u : Task) : Prop :=
  ∃ p q, Plain options t p ∧ Scans options p q ∧ Directs options q key u

/-- A task evaluates a rule. -/
def Calls (t u : Task) : Prop := Holds options t u ∨ ∃ key, PutsUnder options t key u

end

variable {options : Options}

/-! ### Rules that call none -/

theorem Plain.eq_of_not_hasScript {t p : Task} (h : hasScript t.rule = false)
    (hp : Plain options t p) : p = t := by
  cases hp with
  | whole => rfl
  | segment hscript => simp [h] at hscript

/-- A rule without scripts, templates and directives that put is selected. -/
theorem run?_of_flat {t : Task} (hscript : hasScript t.rule = false)
    (hspan : (spans templateTags (trim t.rule)).hasSpan = false)
    (hne : (trim t.rule).isEmpty = false)
    (hputs : ¬ putMark ++ ['\x7b'] <:+: trim t.rule) (depth : Nat) :
    t.run? options (depth + 1) =
      some (selected options t.node t.session (trim t.rule), t.session) := by
  rw [Task.run?, evalText, evalRule_of_not_hasScript hscript, evalPlain_of_not_hasSpan hspan, hne,
    if_neg Bool.false_ne_true, run_evalDirectives, puts_of_absent hputs]
  rfl

/-- A rule without scripts, templates and directives that put calls no other. -/
theorem not_calls_of_flat {t u : Task} (hscript : hasScript t.rule = false)
    (hspan : (spans templateTags (trim t.rule)).hasSpan = false)
    (hputs : ¬ putMark ++ ['\x7b'] <:+: trim t.rule) : ¬ Calls options t u := by
  rintro (⟨p, hp, hu⟩ | ⟨key, p, q, hp, hq, hu⟩)
  · obtain rfl := hp.eq_of_not_hasScript hscript
    obtain ⟨hspans, _⟩ := hu
    rw [Spans.hasSpan, hspans] at hspan
    simp at hspan
  · obtain rfl := hp.eq_of_not_hasScript hscript
    cases hq with
    | plain =>
      obtain ⟨hpairs, _⟩ := hu
      rw [puts_of_absent hputs] at hpairs
      simp [Puts.pairs] at hpairs
    | filled h => simp [hspan] at h

/-! ### What a task that ends calls, ends -/

theorem Plain.exists_runPlain? {t p : Task} (hp : Plain options t p) {depth : Nat}
    {r : String × Session} (h : t.run? options (depth + 1) = some r) :
    ∃ r', p.runPlain? options depth = some r' := by
  rw [Task.run?, evalText] at h
  cases hp with
  | whole hscript =>
    rw [evalRule_of_not_hasScript hscript] at h
    exact ⟨r, h⟩
  | segment hscript hsegments hbefore =>
    rw [run_evalRule_of_hasScript hscript, hsegments] at h
    obtain ⟨_, h, _⟩ := Option.map_eq_some_iff.mp h
    obtain ⟨r', hr'⟩ := exists_step_of_foldlM
      (f := fun depth => segmentStep options (evalText options depth) t.node)
      (segmentStep_mono options t.node) h hbefore
    simp only [segmentStep, map_eq_pure_bind, run_bind_eq_some_iff, evalSegment_rule] at hr'
    obtain ⟨_, _, ⟨value, s, hvalue, _⟩, _⟩ := hr'
    exact ⟨(value, s), hvalue⟩

theorem Fills.exists_run? {p u : Task} (hu : Fills options p u) {depth : Nat}
    {r : String × Session} (h : p.runPlain? options depth = some r) :
    ∃ r', u.run? options depth = some r' := by
  obtain ⟨hspans, hbefore, hcalled⟩ := hu
  have hspan : (spans templateTags (trim p.rule)).hasSpan = true := by
    rw [Spans.hasSpan, hspans]
    simp
  rw [Task.runPlain?, evalPlain_of_hasSpan hspan, run_bind_eq_some_iff] at h
  obtain ⟨filled, s, hfilled, _⟩ := h
  obtain ⟨done, hloop, _⟩ := run_fillM_eq_some_iff.mp hfilled
  obtain ⟨done', hbefore, _⟩ := run_fillM_eq_some_iff.mp hbefore
  rw [hspans] at hloop
  obtain ⟨r', hr'⟩ := exists_step_of_foldlM (templateStep_mono options p.node) hloop hbefore
  obtain ⟨value?, s', hvalue, _⟩ := run_bind_eq_some_iff.mp hr'
  rw [run_resolveTemplate_of_isCalled hcalled, Option.map_eq_some_iff] at hvalue
  obtain ⟨r, hr, _⟩ := hvalue
  exact ⟨r, hr⟩

/-- A scanned text that its task evaluates: its directives are carried out. -/
theorem Scans.exists_evalDirectives {p q : Task} (hq : Scans options p q) (hne : q.rule ≠ [])
    {depth : Nat} {r : String × Session} (h : p.runPlain? options depth = some r) :
    ∃ r', (evalDirectives options (evalText options depth) q.node q.rule).run q.session =
      some r' := by
  cases hq with
  | plain hspan =>
    rw [Task.runPlain?, evalPlain_of_not_hasSpan hspan,
      if_neg (mt List.isEmpty_iff.mp hne)] at h
    exact ⟨r, h⟩
  | filled hspan hselects hfill =>
    rw [Task.runPlain?, evalPlain_of_hasSpan hspan, run_bind_eq_some_iff] at h
    obtain ⟨filled, s, hfilled, h⟩ := h
    rw [evalFilled, if_pos hselects] at h
    obtain ⟨rfl, rfl⟩ := Prod.mk.inj (fillM_unique hfilled hfill)
    exact ⟨r, h⟩

theorem Directs.exists_run? {q u : Task} {key : String} (hu : Directs options q key u) {depth : Nat}
    {r : String × Session}
    (h : (evalDirectives options (evalText options depth) q.node q.rule).run q.session = some r) :
    ∃ r', u.run? options depth = some r' := by
  obtain ⟨hpairs, hbefore⟩ := hu
  rw [run_evalDirectives, hpairs] at h
  obtain ⟨_, h, _⟩ := Option.map_eq_some_iff.mp h
  obtain ⟨r', hr'⟩ := exists_step_of_foldlM
    (f := fun depth _ pair => putPair (evalText options depth) q.node pair)
    (fun hle _ => putPair_mono options q.node hle) h hbefore
  obtain ⟨value, s', hvalue, _⟩ := run_bind_eq_some_iff.mp hr'
  exact ⟨(value, s'), hvalue⟩

theorem Directs.ne_nil {q u : Task} {key : String} (hu : Directs options q key u) :
    q.rule ≠ [] := by
  obtain ⟨hpairs, _⟩ := hu
  intro hnil
  rw [hnil, puts_nil] at hpairs
  simp [Puts.pairs] at hpairs

/-- **A step inwards**: a rule that a task calls ends at less depth than the task. -/
theorem Calls.exists_run? {t u : Task} (hc : Calls options t u) {depth : Nat}
    {r : String × Session} (h : t.run? options (depth + 1) = some r) :
    ∃ r', u.run? options depth = some r' := by
  rcases hc with ⟨p, hp, hu⟩ | ⟨key, p, q, hp, hq, hu⟩
  · obtain ⟨_, hr⟩ := hp.exists_runPlain? h
    exact hu.exists_run? hr
  · obtain ⟨_, hr⟩ := hp.exists_runPlain? h
    obtain ⟨_, hr⟩ := hq.exists_evalDirectives hu.ne_nil hr
    exact hu.exists_run? hr

/-! ### A task whose calls end, ends -/

theorem exists_evalDirectives {q : Task} (h : ∀ key u, Directs options q key u → u.Ends options) :
    ∃ depth r, (evalDirectives options (evalText options depth) q.node q.rule).run q.session =
      some r := by
  obtain ⟨depth, r, hloop⟩ : ∃ depth r, ((puts q.rule).pairs.foldlM
      (fun _ pair => putPair (evalText options depth) q.node pair) ()).run q.session = some r := by
    refine exists_foldlM (f := fun depth _ pair => putPair (evalText options depth) q.node pair)
      (fun hle _ => putPair_mono options q.node hle)
      fun before pair after hpairs d _ s hbefore => ?_
    obtain ⟨depth, ⟨value, s'⟩, hvalue⟩ := h pair.1 _ (.mk hpairs hbefore)
    exact ⟨depth, _, run_bind_eq_some_iff.mpr ⟨value, s', hvalue, rfl⟩⟩
  exact ⟨depth, _, by rw [run_evalDirectives, hloop, Option.map_some]⟩

theorem exists_fill? {p : Task} (h : ∀ u, Fills options p u → u.Ends options) :
    ∃ depth text s, p.fill? options depth = some (text, s) := by
  obtain ⟨depth, ⟨done, s⟩, hloop⟩ : ∃ depth r, ((spans templateTags (trim p.rule)).spans.foldlM
      (templateStep options p.node depth) []).run p.session = some r := by
    refine exists_foldlM (templateStep_mono options p.node)
      fun before span after hspans d done s hbefore => ?_
    have hresolve : ∃ depth r,
        (resolveTemplate options (evalText options depth) p.node span.2).run s = some r := by
      by_cases hcalled : IsCalled s span.2
      · obtain ⟨depth, r, hr⟩ := h _ (.mk hspans
          (run_fillM_eq_some_iff.mpr ⟨done, hbefore, rfl⟩) hcalled)
        refine ⟨depth, (some r.1.toList, r.2), ?_⟩
        rw [run_resolveTemplate_of_isCalled hcalled]
        exact Option.map_eq_some_iff.mpr ⟨r, hr, rfl⟩
      · obtain ⟨value?, s', _, hvalue⟩ := run_resolveTemplate_of_not_isCalled hcalled p.node
        exact ⟨0, (value?, s'), hvalue _⟩
    obtain ⟨depth, ⟨value?, s'⟩, hvalue⟩ := hresolve
    exact ⟨depth, _, run_bind_eq_some_iff.mpr ⟨value?, s', hvalue, rfl⟩⟩
  exact ⟨depth, _, s, run_fillM_eq_some_iff.mpr ⟨done, hloop, rfl⟩⟩

theorem exists_runPlain? {p : Task} (hfills : ∀ u, Fills options p u → u.Ends options)
    (hdirects : ∀ q key u, Scans options p q → Directs options q key u → u.Ends options) :
    ∃ depth r, p.runPlain? options depth = some r := by
  cases hspan : (spans templateTags (trim p.rule)).hasSpan with
  | false =>
    obtain ⟨depth, r, hr⟩ := exists_evalDirectives fun key u => hdirects _ key u (.plain hspan)
    cases hempty : (trim p.rule).isEmpty with
    | false =>
      refine ⟨depth, r, ?_⟩
      rw [Task.runPlain?, evalPlain_of_not_hasSpan hspan, hempty, if_neg Bool.false_ne_true]
      exact hr
    | true =>
      refine ⟨0, ("", p.session), ?_⟩
      rw [Task.runPlain?, evalPlain_of_not_hasSpan hspan, if_pos hempty]
      rfl
  | true =>
    obtain ⟨d₁, text, s, hfill⟩ := exists_fill? hfills
    -- what is scanned depends on the text, but not on the depth it was filled in at
    have hfilled : ∃ depth r,
        (evalFilled options (evalText options depth) p.node p.rule text).run s = some r := by
      cases hselects : selects (trim p.rule) with
      | true =>
        obtain ⟨depth, r, hr⟩ := exists_evalDirectives fun key u =>
          hdirects _ key u (.filled hspan hselects hfill)
        exact ⟨depth, r, by rw [evalFilled, if_pos hselects]; exact hr⟩
      | false => exact ⟨0, _, by rw [evalFilled, hselects, if_neg Bool.false_ne_true]; rfl⟩
    obtain ⟨d₂, r, hr⟩ := hfilled
    refine ⟨max d₁ d₂, r, ?_⟩
    rw [Task.runPlain?, evalPlain_of_hasSpan hspan, run_bind_eq_some_iff]
    have h₁ := evalText_mono options (Nat.le_max_left d₁ d₂)
    have h₂ := evalText_mono options (Nat.le_max_right d₁ d₂)
    have hfill := fillM_extends h₁ p.node _ _ _ hfill
    exact ⟨text, s, hfill, evalFilled_extends h₂ p.node p.rule text s r hr⟩

/-- **A step outwards**: a task ends when all tasks that it calls do. -/
theorem ends_of_calls {t : Task} (h : ∀ u, Calls options t u → u.Ends options) :
    t.Ends options := by
  have hplain : ∀ p, Plain options t p → ∃ depth r, p.runPlain? options depth = some r :=
    fun p hp => exists_runPlain? (fun u hu => h u (.inl ⟨p, hp, hu⟩))
      fun q key u hq hu => h u (.inr ⟨key, p, q, hp, hq, hu⟩)
  cases hscript : hasScript t.rule with
  | false =>
    obtain ⟨depth, r, hr⟩ := hplain t (.whole hscript)
    exact ⟨depth + 1, r, by rw [Task.run?, evalText, evalRule_of_not_hasScript hscript]; exact hr⟩
  | true =>
    obtain ⟨depth, r, hloop⟩ : ∃ depth r, ((segments t.rule).foldlM
        (segmentStep options (evalText options depth) t.node) none).run t.session = some r := by
      refine exists_foldlM (f := fun depth => segmentStep options (evalText options depth) t.node)
        (segmentStep_mono options t.node)
        fun before segment after hsegments d value? s hbefore => ?_
      have hsegment : ∃ depth r,
          (evalSegment options (evalText options depth) t.node value? segment).run s = some r := by
        cases segment with
        | script source =>
          obtain ⟨value, s', _, hvalue⟩ := run_evalSegment_script t.node value? source s
          exact ⟨0, (value, s'), hvalue _⟩
        | rule text =>
          obtain ⟨depth, ⟨value, s'⟩, hvalue⟩ := hplain _ (.segment hscript hsegments hbefore)
          refine ⟨depth, (.string value, s'), ?_⟩
          rw [evalSegment_rule]
          exact run_bind_eq_some_iff.mpr ⟨value, s', hvalue, rfl⟩
      obtain ⟨depth, ⟨value, s'⟩, hvalue⟩ := hsegment
      refine ⟨depth, (some value, s'), ?_⟩
      rw [segmentStep, map_eq_pure_bind]
      exact run_bind_eq_some_iff.mpr ⟨value, s', hvalue, rfl⟩
    refine ⟨depth + 1, ((r.1.getD .undefined).output, r.2), ?_⟩
    rw [Task.run?, evalText, run_evalRule_of_hasScript hscript, hloop, Option.map_some]

end Scrape.Evaluate
