import Mathlib
import Scrape.Proofs.Depth
import Scrape.Proofs.Evaluate.Calls
import Scrape.Proofs.Rule.Segment

/-!
# Evaluate — Endless

When the evaluation of a rule ends.  The rule in a template is shorter than the rule that holds it
(`Holds.length_lt`), so that templates alone come to an end.  What a directive puts is not bounded
in this way, for the text that is scanned for directives holds what the templates have given.

Main statement (`task_ends_iff`): a rule ends if and only if no endless row of rules starts at it,
each put by a directive of the one before it, or of a rule in its templates (`Leads`).  A session
can hold such a row: with `selfSession`, the rule `selfPut` puts itself (`selfPut_never_ends`).
-/

namespace Scrape.Evaluate

open Relation (ReflTransGen)
open Scrape.Rule (length_of_mem_inners length_of_mem_segments spans)
open Scrape.Text (length_trim_le trim)

variable {options : Options}

/-- A task leads to the rules that directives put: its own, and those of the rules in its
templates. -/
def Leads (options : Options) (t u : Task) : Prop :=
  ∃ v key, ReflTransGen (Holds options) t v ∧ PutsUnder options v key u

theorem Plain.length_le {t p : Task} (hp : Plain options t p) :
    p.rule.length ≤ t.rule.length := by
  cases hp with
  | whole => exact Nat.le_refl _
  | segment _ hsegments =>
    refine length_of_mem_segments ?_
    rw [hsegments]
    exact List.mem_append_right _ List.mem_cons_self

theorem Fills.length_lt {p u : Task} (hu : Fills options p u) : u.rule.length < p.rule.length := by
  obtain @⟨before, after, lead, body, _, _, _, hspans, _, _⟩ := hu
  have hbody : body ∈ (spans templateTags (trim p.rule)).inners := by
    rw [Rule.Spans.inners, hspans, List.map_append, List.map_cons]
    exact List.mem_append_right _ List.mem_cons_self
  have hlen := length_of_mem_inners hbody
  have htrim := length_trim_le body
  have hrule := length_trim_le p.rule
  simp only [templateTags, List.length_cons] at hlen
  dsimp only
  omega

/-- **A template is shorter** than the rule that holds it. -/
theorem Holds.length_lt {t u : Task} (hu : Holds options t u) :
    u.rule.length < t.rule.length := by
  obtain ⟨p, hp, hu⟩ := hu
  exact Nat.lt_of_lt_of_le hu.length_lt hp.length_le

theorem Leads.of_holds {t u v : Task} (hu : Holds options t u) (hv : Leads options u v) :
    Leads options t v := by
  obtain ⟨w, key, hw, hv⟩ := hv
  exact ⟨w, key, .head hu hw, hv⟩

/-- What a task leads to ends at less depth than the task. -/
theorem Leads.exists_run? {t u : Task} {depth : Nat} {r : String × Session}
    (hu : Leads options t u) (h : t.run? options depth = some r) :
    ∃ less < depth, ∃ r', u.run? options less = some r' := by
  obtain ⟨v, key, hv, hu⟩ := hu
  induction hv using ReflTransGen.head_induction_on generalizing depth r with
  | refl =>
    cases depth with
    | zero => cases h
    | succ depth => exact ⟨depth, Nat.lt_succ_self depth, Calls.exists_run? (.inr ⟨key, hu⟩) h⟩
  | head hheld _ ih =>
    cases depth with
    | zero => cases h
    | succ depth =>
      obtain ⟨_, hr⟩ := Calls.exists_run? (.inl hheld) h
      obtain ⟨less, hless, hr⟩ := ih hr
      exact ⟨less, Nat.lt_succ_of_lt hless, hr⟩

/-- A task ends when all tasks that it leads to do; the rules in templates need not be asked about,
for they are shorter. -/
theorem ends_of_leads {t : Task} (h : ∀ u, Leads options t u → u.Ends options) :
    t.Ends options := by
  -- on the length of the rule, which goes down into templates and is left behind by directives
  induction hn : t.rule.length using Nat.strong_induction_on generalizing t with
  | _ n ih =>
    subst hn
    refine ends_of_calls fun u hu => ?_
    rcases hu with hu | ⟨key, hu⟩
    · exact ih _ hu.length_lt (fun v hv => h v (.of_holds hu hv)) rfl
    · exact h u ⟨t, key, .refl, hu⟩

/-- **When a rule ends**: if and only if no endless row of rules starts at it, each put by a
directive of the one before it or of a rule in its templates. -/
theorem task_ends_iff (options : Options) (t : Task) :
    t.Ends options ↔
      ¬ ∃ tasks : Nat → Task, tasks 0 = t ∧ ∀ i, Leads options (tasks i) (tasks (i + 1)) :=
  exists_depth_iff_no_row (fun hr hu => hu.exists_run? hr) ends_of_leads t

/-! ### A rule that puts itself -/

/-- A rule whose template is a key: what is under `s`, with a step of a selector behind it. -/
def selfPut : List Char := "\x7b\x7bs\x7d\x7d@text".toList

/-- A directive that puts `selfPut` under `a`. -/
def selfDirective : String := "@put:\x7b\"a\": \"\x7b\x7bs\x7d\x7d@text\"\x7d"

/-- A session with `selfDirective` under `s`. -/
def selfSession : Session := ⟨[("s", selfDirective)]⟩

theorem pairs_selfDirective :
    (puts (selfDirective.toList ++ "@text".toList)).pairs = [("a", selfPut)] := by
  have hcut : Text.cut? (putMark ++ ['\x7b']) (selfDirective.toList ++ "@text".toList) =
      some ([], "\"a\": \"\x7b\x7bs\x7d\x7d@text\"\x7d@text".toList) := by cbv
  have hclose : closeBrace? 1 none false [] "\"a\": \"\x7b\x7bs\x7d\x7d@text\"\x7d@text".toList =
      some ("\"a\": \"\x7b\x7bs\x7d\x7d@text\"".toList, "@text".toList) := by cbv
  exact pairs_puts_of_object hcut hclose (by rfl) (by rfl)

theorem selfPut_leads_self (options : Options) (n : Node) :
    Leads options ⟨selfSession, n, selfPut⟩ ⟨selfSession, n, selfPut⟩ := by
  have hspans : spans templateTags (trim selfPut) = ⟨[([], ['s'])], "@text".toList⟩ := by cbv
  have hkey : selfSession.get? (String.ofList (trim ['s'])) = some selfDirective := by cbv
  have hfill : Task.fill? options 0 ⟨selfSession, n, selfPut⟩ =
      some (selfDirective.toList ++ "@text".toList, selfSession) := by
    rw [Task.fill?, hspans, Rule.Spans.fillM_cons, Rule.Spans.fillM_nil, run_bind_eq_some_iff]
    exact ⟨some selfDirective.toList, selfSession,
      run_resolveTemplate_of_key (by cbv) hkey _ n, rfl⟩
  have hscans : Scans options ⟨selfSession, n, selfPut⟩
      ⟨selfSession, n, selfDirective.toList ++ "@text".toList⟩ :=
    .filled (by rw [hspans]; rfl) (by cbv) hfill
  refine ⟨_, "a", .refl, ⟨selfSession, n, selfPut⟩, _, .whole (by cbv), hscans, ?_⟩
  exact @Directs.mk options _ "a" [] [] selfPut 0 selfSession pairs_selfDirective rfl

/-- **A session can keep an evaluation going**: with `selfSession`, `selfPut` has no result on an
empty page. -/
theorem selfPut_never_ends :
    ¬ Task.Ends {} ⟨selfSession, (Document.ofHtml "").root, selfPut⟩ :=
  not_exists_depth_of_leads_self (fun hr hu => hu.exists_run? hr)
    (selfPut_leads_self {} (Document.ofHtml "").root)

end Scrape.Evaluate
