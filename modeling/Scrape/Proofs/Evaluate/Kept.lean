import Mathlib
import Scrape.Proofs.Evaluate.Calls
import Scrape.Proofs.Json.Lookup

/-!
# Evaluate — Kept

What an evaluation leaves as it is in the session when no scripts are run.  Texts are scanned for
directives after their templates are filled in, so that what a document holds can be carried out as
a directive too (`splicedRule_puts`).  Nothing but directives writes to the session.

Main statement (`get?_eq_of_not_names`): a key keeps its value unless a directive that names it is
carried out, of the rule or of one that its evaluation comes to (`Names`).
-/

namespace Scrape.Evaluate

open Relation (ReflTransGen)
open Scrape.Rule (Segment Spans hasScript segments spans)
open Scrape.Text (trim)

variable {options : Options}

/-- The evaluation of a task comes to a directive that puts a value under a key. -/
def Names (options : Options) (t : Task) (key : String) : Prop :=
  ∃ v u, ReflTransGen (Calls options) t v ∧ PutsUnder options v key u

theorem Names.of_calls {t u : Task} {key : String} (hu : Calls options t u)
    (hkey : Names options u key) : Names options t key := by
  obtain ⟨v, w, hv, hw⟩ := hkey
  exact ⟨v, w, .head hu hv, hw⟩

/-! ### What a step leaves as it is -/

section

variable {t : Task} {key : String} {depth : Nat}
  (hcalls : ∀ u, Calls options t u → ∀ r, u.run? options depth = some r →
    r.2.get? key = u.session.get? key)
  (hputs : ∀ u, ¬ PutsUnder options t key u)

include hcalls hputs

theorem evalDirectives_keeps {p q : Task} (hp : Plain options t p) (hq : Scans options p q)
    {r : String × Session}
    (h : (evalDirectives options (evalText options depth) q.node q.rule).run q.session = some r) :
    r.2.get? key = q.session.get? key := by
  rw [run_evalDirectives, Option.map_eq_some_iff] at h
  obtain ⟨⟨_, s⟩, hloop, rfl⟩ := h
  refine foldlM_induction (P := fun s => s.get? key = q.session.get? key) hloop rfl
    fun before pair after hpairs _ s₁ r₁ hbefore hr₁ hs₁ => ?_
  obtain ⟨value, s₂, hvalue, hr₁⟩ := run_bind_eq_some_iff.mp hr₁
  obtain rfl := Option.some.inj hr₁
  have hu : PutsUnder options t pair.1 ⟨s₁, q.node, pair.2⟩ := ⟨p, q, hp, hq, .mk hpairs hbefore⟩
  have hne : pair.1 ≠ key := fun heq => hputs _ (heq ▸ hu)
  calc (s₂.put pair.1 value).get? key = s₂.get? key := Session.get?_put_of_ne hne value s₂
    _ = s₁.get? key := hcalls _ (.inr ⟨pair.1, hu⟩) _ hvalue
    _ = q.session.get? key := hs₁

omit hputs in
theorem fill?_keeps (hscripts : options.scripts = false) {p : Task} (hp : Plain options t p)
    {filled : List Char} {s : Session}
    (h : p.fill? options depth = some (filled, s)) :
    s.get? key = p.session.get? key := by
  obtain ⟨done, hloop, _⟩ := run_fillM_eq_some_iff.mp h
  refine foldlM_induction (P := fun s => s.get? key = p.session.get? key) hloop rfl
    fun before span after hspans done s₁ r₁ hbefore hr₁ hs₁ => ?_
  obtain ⟨value?, s₂, hvalue, hr₁⟩ := run_bind_eq_some_iff.mp hr₁
  obtain rfl := Option.some.inj hr₁
  by_cases hcalled : IsCalled s₁ span.2
  · have hu : Holds options t ⟨s₁, p.node, trim span.2⟩ :=
      ⟨p, hp, .mk hspans (run_fillM_eq_some_iff.mpr ⟨done, hbefore, rfl⟩) hcalled⟩
    rw [run_resolveTemplate_of_isCalled hcalled, Option.map_eq_some_iff] at hvalue
    obtain ⟨r, hr, heq⟩ := hvalue
    obtain ⟨_, rfl⟩ := Prod.mk.inj heq
    exact (hcalls _ (.inl hu) r hr).trans hs₁
  · obtain ⟨value', s', hkept, hrun⟩ := run_resolveTemplate_of_not_isCalled hcalled p.node
    rw [hrun] at hvalue
    obtain ⟨_, rfl⟩ := Prod.mk.inj (Option.some.inj hvalue)
    rw [hkept hscripts]
    exact hs₁

theorem runPlain?_keeps (hscripts : options.scripts = false) {p : Task} (hp : Plain options t p)
    {r : String × Session} (h : p.runPlain? options depth = some r) :
    r.2.get? key = p.session.get? key := by
  cases hspan : (spans templateTags (trim p.rule)).hasSpan with
  | false =>
    rw [Task.runPlain?, evalPlain_of_not_hasSpan hspan] at h
    split at h
    · obtain rfl := Option.some.inj h
      rfl
    · exact evalDirectives_keeps hcalls hputs hp (.plain hspan) h
  | true =>
    rw [Task.runPlain?, evalPlain_of_hasSpan hspan] at h
    obtain ⟨filled, s, hfill, h⟩ := run_bind_eq_some_iff.mp h
    have hs := fill?_keeps hcalls hscripts hp hfill
    rw [evalFilled] at h
    split at h
    · next hselects =>
      exact (evalDirectives_keeps hcalls hputs hp (.filled hspan hselects hfill) h).trans hs
    · obtain rfl := Option.some.inj h
      exact hs

/-- A task keeps the value of a key that its calls keep and that it puts nothing under. -/
theorem run?_succ_keeps (hscripts : options.scripts = false) {r : String × Session}
    (h : t.run? options (depth + 1) = some r) : r.2.get? key = t.session.get? key := by
  cases hscript : hasScript t.rule with
  | false =>
    rw [Task.run?, evalText, evalRule_of_not_hasScript hscript] at h
    exact runPlain?_keeps hcalls hputs hscripts (.whole hscript) h
  | true =>
    rw [Task.run?, evalText, run_evalRule_of_hasScript hscript, Option.map_eq_some_iff] at h
    obtain ⟨r, hloop, rfl⟩ := h
    refine foldlM_induction (P := fun s => s.get? key = t.session.get? key) hloop rfl
      fun before segment after hsegments value? s₁ r₁ hbefore hr₁ hs₁ => ?_
    rw [segmentStep, map_eq_pure_bind] at hr₁
    obtain ⟨value, s₂, hvalue, hr₁⟩ := run_bind_eq_some_iff.mp hr₁
    obtain rfl := Option.some.inj hr₁
    cases segment with
    | script source =>
      obtain ⟨value', s', hkept, hrun⟩ := run_evalSegment_script t.node value? source s₁
      rw [hrun] at hvalue
      obtain ⟨_, rfl⟩ := Prod.mk.inj (Option.some.inj hvalue)
      rw [hkept hscripts]
      exact hs₁
    | rule text =>
      rw [evalSegment_rule] at hvalue
      obtain ⟨value, s₃, hplain, heq⟩ := run_bind_eq_some_iff.mp hvalue
      obtain ⟨_, rfl⟩ := Prod.mk.inj (Option.some.inj heq)
      have hp : Plain options t ⟨s₁, nodeAfter t.node value?, text⟩ :=
        .segment hscript hsegments hbefore
      exact (runPlain?_keeps hcalls hputs hscripts hp hplain).trans hs₁

end

/-- **What is kept**: without scripts, a rule keeps the value of every key that no directive names
which its evaluation comes to. -/
theorem get?_eq_of_not_names (hscripts : options.scripts = false) {t : Task} {key : String}
    (hkey : ¬ Names options t key) {depth : Nat} {text : String} {session : Session}
    (h : t.run? options depth = some (text, session)) :
    session.get? key = t.session.get? key := by
  -- the tasks that a task calls do not name the key either, and they run at less depth
  have hkept : ∀ depth : Nat, ∀ t : Task, ¬ Names options t key → ∀ r,
      t.run? options depth = some r → r.2.get? key = t.session.get? key := by
    intro depth
    induction depth with
    | zero =>
      intro t _ r hr
      cases hr
    | succ depth ih =>
      intro t hkey r hr
      have hcalls : ∀ u, Calls options t u → ∀ r, u.run? options depth = some r →
          r.2.get? key = u.session.get? key :=
        fun u hu => ih u fun hnames => hkey (.of_calls hu hnames)
      have hputs : ∀ u, ¬ PutsUnder options t key u := fun u hu => hkey ⟨t, u, .refl, hu⟩
      exact run?_succ_keeps hcalls hputs hscripts hr
  exact hkept depth t hkey _ h

/-! ### A directive from a document -/

/-- A value that holds a directive, which puts what is at `$.b`. -/
def splicedRoot : Json :=
  .object [("v", .string "@put:\x7b\"k\": \"$.b\"\x7d"), ("b", .string "x")]

/-- A rule that selects what is at `$.b`, with a template in front that gives the directive. -/
def splicedRule : List Char := "\x7b\x7b$.v\x7d\x7d$.b".toList

/-- The rule on the value, with nothing in the session. -/
def splicedTask : Task := ⟨Session.empty, .json splicedRoot 0, splicedRule⟩

/-- The rule as it is scanned for directives. -/
def splicedText : List Char := "@put:\x7b\"k\": \"$.b\"\x7d$.b".toList

theorem pairs_splicedText : (puts splicedText).pairs = [("k", "$.b".toList)] := by
  have hcut : Text.cut? (putMark ++ ['\x7b']) splicedText =
      some ([], "\"k\": \"$.b\"\x7d$.b".toList) := by cbv
  have hclose : closeBrace? 1 none false [] "\"k\": \"$.b\"\x7d$.b".toList =
      some ("\"k\": \"$.b\"".toList, "$.b".toList) := by cbv
  exact pairs_puts_of_object hcut hclose (by rfl) (by rfl)

theorem selected_splicedRoot (options : Options) :
    selected options (.json splicedRoot 0) Session.empty "$.v".toList =
      "@put:\x7b\"k\": \"$.b\"\x7d" := by
  have hsplit : splitSuffix (withGets Session.empty "$.v".toList) =
      ("$.v".toList, ⟨[], [], false⟩) := by cbv
  have htree : Rule.Composite.tree (trim "$.v".toList) = .plain "$.v".toList := by cbv
  have hspan : (spans JsonPath.templateTags "$.v".toList).hasSpan = false := by cbv
  have htext : JsonPath.text splicedRoot "$.v".toList = "@put:\x7b\"k\": \"$.b\"\x7d" := by
    rw [JsonPath.text_of_plain (by rfl) htree hspan]
    rfl
  have hselect : selectText options (.json splicedRoot 0) "$.v".toList =
      "@put:\x7b\"k\": \"$.b\"\x7d" := by
    rw [selectText_of_json options (by rfl) (by rfl), ← htext]
    rfl
  have htrim : trim "$.v".toList = "$.v".toList := by rfl
  rw [selected, hsplit]
  dsimp only
  rw [htrim, if_neg (by decide), hselect]
  rfl

theorem run?_splicedRoot (options : Options) {path : List Char} (htrim : trim path = path)
    (hscript : Rule.hasScript path = false) (hspan : (spans templateTags path).hasSpan = false)
    (hne : path.isEmpty = false) (hput : ¬ putMark ++ ['\x7b'] <:+: path) :
    (evalText options 1 (.json splicedRoot 0) path).run Session.empty =
      some (selected options (.json splicedRoot 0) Session.empty path, Session.empty) := by
  have h := @run?_of_flat options ⟨Session.empty, .json splicedRoot 0, path⟩ hscript
    (by rw [htrim]; exact hspan) (by rw [htrim]; exact hne) (by rw [htrim]; exact hput) 0
  rw [htrim] at h
  exact h

theorem fill?_splicedTask (options : Options) :
    splicedTask.fill? options 1 = some (splicedText, Session.empty) := by
  have hspans : spans templateTags (trim splicedTask.rule) =
      ⟨[([], "$.v".toList)], "$.b".toList⟩ := by cbv
  have hput : ¬ putMark ++ ['\x7b'] <:+: "$.v".toList := by
    rw [← Text.cut?_eq_none_iff]
    rfl
  have hcalled : IsCalled splicedTask.session "$.v".toList := ⟨by decide, rfl, rfl⟩
  rw [Task.fill?, hspans, Spans.fillM_cons, Spans.fillM_nil, run_bind_eq_some_iff]
  refine ⟨some "@put:\x7b\"k\": \"$.b\"\x7d".toList, Session.empty, ?_, rfl⟩
  rw [run_resolveTemplate_of_isCalled hcalled]
  change ((evalText options 1 (.json splicedRoot 0) "$.v".toList).run Session.empty).map _ = _
  rw [run?_splicedRoot options rfl rfl (by cbv) rfl hput, selected_splicedRoot]
  rfl

theorem run?_splicedRule (options : Options) : ∃ text value,
    splicedTask.run? options 2 =
      some (text, Session.empty.put "k" value) := by
  have hput : ¬ putMark ++ ['\x7b'] <:+: "$.b".toList := by
    rw [← Text.cut?_eq_none_iff]
    rfl
  have hspan : (spans templateTags (trim splicedTask.rule)).hasSpan = true := by cbv
  have hselects : selects (trim splicedTask.rule) = true := by cbv
  obtain ⟨value, hvalue⟩ : ∃ value, (evalText options 1 (.json splicedRoot 0) "$.b".toList).run
      Session.empty = some (value, Session.empty) :=
    ⟨_, run?_splicedRoot options rfl rfl (by cbv) rfl hput⟩
  obtain ⟨text, hrun⟩ : ∃ text, (evalDirectives options (evalText options 1) (.json splicedRoot 0)
      splicedText).run Session.empty = some (text, Session.empty.put "k" value) :=
    ⟨_, run_evalDirectives_of_pair options pairs_splicedText hvalue⟩
  refine ⟨text, value, ?_⟩
  rw [Task.run?, evalText, evalRule_of_not_hasScript (by cbv), evalPlain_of_hasSpan hspan]
  refine run_bind_eq_some_iff.mpr ⟨splicedText, Session.empty, fill?_splicedTask options, ?_⟩
  rw [evalFilled, if_pos hselects]
  exact hrun

/-- **A document can hold a directive**: without scripts, and with no mark of a directive in it,
`splicedRule` puts a value under `k`. -/
theorem splicedRule_puts :
    ¬ putMark <:+: splicedRule ∧ ∃ depth text session,
      splicedTask.run? { scripts := false } depth = some (text, session) ∧
      session.get? "k" ≠ splicedTask.session.get? "k" := by
  obtain ⟨text, value, hrun⟩ := run?_splicedRule { scripts := false }
  refine ⟨by rw [← Text.cut?_eq_none_iff]; rfl, 2, text, Session.empty.put "k" value, hrun, ?_⟩
  rw [Session.get?_put_self]
  exact Option.some_ne_none value

theorem PutsUnder.of_splicedTask {key : String} {u : Task}
    (hu : PutsUnder options splicedTask key u) : key = "k" ∧ u.rule = "$.b".toList := by
  obtain ⟨p, q, hp, hq, hu⟩ := hu
  obtain rfl := hp.eq_of_not_hasScript (by cbv)
  have hscanned : q.rule = splicedText := by
    cases hq with
    | plain hspan =>
      have h : (spans templateTags (trim splicedTask.rule)).hasSpan = true := by cbv
      rw [h] at hspan
      cases hspan
    | filled _ _ hfill => exact (Prod.mk.inj (fillM_unique hfill (fill?_splicedTask options))).1
  obtain @⟨before, after, rule, _, _, hpairs, _⟩ := hu
  rw [hscanned, pairs_splicedText] at hpairs
  cases before with
  | nil =>
    obtain ⟨rfl, rfl⟩ := Prod.mk.inj (List.head_eq_of_cons_eq hpairs)
    exact ⟨rfl, rfl⟩
  | cons pair before => simp at hpairs

theorem Holds.of_splicedTask {u : Task} (hu : Holds options splicedTask u) :
    u.rule = "$.v".toList := by
  obtain ⟨p, hp, hu⟩ := hu
  obtain rfl := hp.eq_of_not_hasScript (by cbv)
  obtain @⟨before, after, lead, body, _, _, _, hspans, _, _⟩ := hu
  have h : (spans templateTags (trim splicedRule)).spans = [([], "$.v".toList)] := by cbv
  change (spans templateTags (trim splicedRule)).spans = _ at hspans
  rw [h] at hspans
  cases before with
  | nil =>
    obtain ⟨rfl, rfl⟩ := Prod.mk.inj (List.head_eq_of_cons_eq hspans)
    rfl
  | cons span before => simp at hspans

/-- Filling in `splicedRule` and carrying out its directive comes to no further directive. -/
theorem key_eq_of_names_splicedTask {key : String} (h : Names options splicedTask key) :
    key = "k" := by
  obtain ⟨v, u, hv, hu⟩ := h
  have hflat : ∀ w, Calls options splicedTask w → ∀ x, ¬ Calls options w x := by
    intro w hw x
    rcases hw with hw | ⟨_, hw⟩
    · have hrule := hw.of_splicedTask
      refine not_calls_of_flat (by rw [hrule]; cbv) (by rw [hrule]; cbv) ?_
      rw [hrule, ← Text.cut?_eq_none_iff]
      rfl
    · have hrule := hw.of_splicedTask.2
      refine not_calls_of_flat (by rw [hrule]; cbv) (by rw [hrule]; cbv) ?_
      rw [hrule, ← Text.cut?_eq_none_iff]
      rfl
  cases hv using ReflTransGen.head_induction_on with
  | refl => exact hu.of_splicedTask.1
  | head hw hrest =>
    cases hrest using ReflTransGen.head_induction_on with
    | refl => exact absurd (.inr ⟨key, hu⟩) (hflat _ hw u)
    | head hx _ => exact absurd hx (hflat _ hw _)

/-- The other keys keep their values. -/
theorem splicedRule_keeps : ∃ text session,
    splicedTask.run? { scripts := false } 2 = some (text, session) ∧
      ¬ Names { scripts := false } splicedTask "v" ∧
      session.get? "v" = splicedTask.session.get? "v" := by
  obtain ⟨text, value, hrun⟩ := run?_splicedRule { scripts := false }
  have hkey : ¬ Names { scripts := false } splicedTask "v" := fun h =>
    absurd (key_eq_of_names_splicedTask h) (by decide)
  exact ⟨text, Session.empty.put "k" value, hrun, hkey, get?_eq_of_not_names rfl hkey hrun⟩

end Scrape.Evaluate
