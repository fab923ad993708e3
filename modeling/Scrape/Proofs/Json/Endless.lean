import Mathlib
import Scrape.Proofs.Depth
import Scrape.Proofs.Json.Lookup

/-!
# Json — Endless

When the lookups of a rule over a JSON value end.  Two things make lookups nest.  The rule does: a
template stands in a template, or an operand in an operator; and that ends, because what stands in
a template is shorter than what the template stands in.  The value does: what a template looks up
becomes part of a path, and a path may hold templates (`Leads`).

Main statement (`ends_iff`): a rule has a text if and only if no endless row of paths starts at it,
each of which a template of the one before it becomes when it is filled in.  A value can hold such a
row: on `selfRoot`, `selfRule` leads to itself (`selfRule_never_ends`).
-/

namespace Scrape.JsonPath

open Scrape.Rule (Composite Spans maxTemplateDepth spanDepth spans)
open Scrape.Text (trim)

variable {root : Json}

/-! ### What a lookup leads to -/

/-- The rule has a text. -/
def Ends (root : Json) (rule : List Char) : Prop := ∃ depth text, text? root depth rule = some text

/-- The rules have empty texts, as the operands have that `||` passes over. -/
def Blank (root : Json) (parts : List Composite.Tree) : Prop :=
  ∀ t ∈ parts, ∃ depth, treeText? root (leafText? root depth) t = some ""

/-- The text of a tree takes that of a rule at a leaf. -/
inductive Visits (root : Json) : Composite.Tree → List Char → Prop where
  | plain (rule : List Char) : Visits root (.plain rule) rule
  | all {parts : List Composite.Tree} {t : Composite.Tree} {leaf : List Char} :
      t ∈ parts → Visits root t leaf → Visits root (.join .all parts) leaf
  | any {before after : List Composite.Tree} {t : Composite.Tree} {leaf : List Char} :
      Blank root before → Visits root t leaf →
      Visits root (.join .any (before ++ t :: after)) leaf

/-- Filling in a text looks up a path: the one that a template of it becomes when it is filled in
itself, or one for a template within. -/
inductive Asks (root : Json) : List Char → List Char → Prop where
  | here {text inner : List Char} {filled? : Option (List Char)} {depth : Nat} :
      inner ∈ (spans templateTags text).inners → spanDepth templateTags inner < maxTemplateDepth →
      substitute? root depth inner = some filled? →
      Asks root text ('$' :: '.' :: filled?.getD inner)
  | within {text inner path : List Char} :
      inner ∈ (spans templateTags text).inners → spanDepth templateTags inner < maxTemplateDepth →
      Asks root inner path → Asks root text path

/-- The text of a rule takes that of a path put together from what its templates look up. -/
def Leads (root : Json) (rule path : List Char) : Prop :=
  ∃ leaf, Visits root (Composite.tree (trim rule)) leaf ∧ Asks root leaf path

/-! ### What a text that ends leads to -/

theorem exists_treeText?_of_allTexts? {leaf : List Char → Option String}
    {parts : List Composite.Tree} {texts : List String} (h : allTexts? root leaf parts = some texts)
    {t : Composite.Tree} (ht : t ∈ parts) : ∃ text, treeText? root leaf t = some text := by
  induction parts generalizing texts with
  | nil => cases ht
  | cons u parts ih =>
    simp only [allTexts?, Option.bind_eq_bind, Option.bind_eq_some_iff] at h
    obtain ⟨text, htext, rest, hrest, _⟩ := h
    rcases List.mem_cons.mp ht with rfl | ht
    · exact ⟨text, htext⟩
    · exact ih hrest ht

theorem Blank.exists_treeText? {before after : List Composite.Tree} {t : Composite.Tree}
    {depth : Nat} {text : String} (hb : Blank root before)
    (h : firstText? root (leafText? root depth) (before ++ t :: after) = some text) :
    ∃ text, treeText? root (leafText? root depth) t = some text := by
  induction before with
  | nil =>
    obtain ⟨first, hfirst, _⟩ := Option.bind_eq_some_iff.mp h
    exact ⟨first, hfirst⟩
  | cons u before ih =>
    obtain ⟨first, hfirst, hrest⟩ := Option.bind_eq_some_iff.mp h
    obtain ⟨depth', hempty⟩ := hb u List.mem_cons_self
    -- the first operand is empty at this depth too, so that the next one is looked at
    obtain rfl := treeText?_unique hfirst hempty
    exact ih (fun v hv => hb v (List.mem_cons_of_mem u hv)) hrest

theorem Visits.exists_leafText? {t : Composite.Tree} {leaf : List Char} (hv : Visits root t leaf)
    {depth : Nat} {text : String} (h : treeText? root (leafText? root depth) t = some text) :
    ∃ text, leafText? root depth leaf = some text := by
  induction hv generalizing text with
  | plain rule => exact ⟨text, by rw [← h, treeText?]⟩
  | all ht _ ih =>
    rw [treeText?] at h
    obtain ⟨texts, hparts, _⟩ := Option.map_eq_some_iff.mp h
    obtain ⟨_, htree⟩ := exists_treeText?_of_allTexts? hparts ht
    exact ih htree
  | any hb _ ih =>
    rw [treeText?] at h
    obtain ⟨_, htree⟩ := hb.exists_treeText? h
    exact ih htree

/-- A template that is filled in: what stands in it is, and then the path is looked up. -/
theorem exists_spanText? {depth : Nat} {text : List Char} {filled? : Option (List Char)}
    (h : substitute? root depth text = some filled?) {inner : List Char}
    (hinner : inner ∈ (spans templateTags text).inners)
    (hdeep : spanDepth templateTags inner < maxTemplateDepth) :
    ∃ less < depth, ∃ inner? value, substitute? root less inner = some inner? ∧
      text? root less ('$' :: '.' :: inner?.getD inner) = some value := by
  cases depth with
  | zero => simp [substitute?] at h
  | succ depth =>
    have hspan : (spans templateTags text).hasSpan = true := by
      obtain ⟨span, hmem, _⟩ := List.mem_map.mp hinner
      rw [Spans.hasSpan, Bool.not_eq_true', List.isEmpty_eq_false_iff]
      exact List.ne_nil_of_mem hmem
    rw [substitute?_succ, hspan, Bool.not_true, if_neg (by decide)] at h
    obtain ⟨filled, hfilled, _⟩ := Option.map_eq_some_iff.mp h
    obtain ⟨value?, hvalue⟩ := Option.isSome_iff_exists.mp
      (Spans.fillM_isSome_iff.mp (Option.isSome_of_eq_some hfilled) inner hinner)
    rw [spanText?, if_neg (by omega)] at hvalue
    obtain ⟨inner?, hpath, hvalue⟩ := Option.bind_eq_some_iff.mp hvalue
    obtain ⟨value, htext, _⟩ := Option.map_eq_some_iff.mp hvalue
    exact ⟨depth, Nat.lt_succ_self depth, inner?, value, hpath, htext⟩

theorem Asks.exists_text? {text path : List Char} (ha : Asks root text path) {depth : Nat}
    {filled? : Option (List Char)} (h : substitute? root depth text = some filled?) :
    ∃ less < depth, ∃ value, text? root less path = some value := by
  induction ha generalizing depth filled? with
  | here hinner hdeep hfill =>
    obtain ⟨less, hless, inner?, value, hpath, hvalue⟩ := exists_spanText? h hinner hdeep
    obtain rfl := substitute?_unique hpath hfill
    exact ⟨less, hless, value, hvalue⟩
  | within hinner hdeep _ ih =>
    obtain ⟨less, hless, inner?, _, hpath, _⟩ := exists_spanText? h hinner hdeep
    obtain ⟨lesser, hlesser, value, hvalue⟩ := ih hpath
    exact ⟨lesser, by omega, value, hvalue⟩

theorem Asks.ne_nil {text path : List Char} (ha : Asks root text path) : text ≠ [] := by
  rintro rfl
  cases ha with
  | here hinner =>
    rw [Rule.spans_nil] at hinner
    cases hinner
  | within hinner =>
    rw [Rule.spans_nil] at hinner
    cases hinner

theorem tree_ne_of_leads {rule path : List Char} (hl : Leads root rule path) :
    (trim rule).isEmpty = false := by
  obtain ⟨leaf, hvisits, hasks⟩ := hl
  rw [List.isEmpty_eq_false_iff]
  intro hempty
  rw [hempty] at hvisits
  cases hvisits
  exact hasks.ne_nil rfl

/-- **A step inwards**: the path that a rule leads to ends at less depth than the rule. -/
theorem Leads.exists_text? {rule path : List Char} (hl : Leads root rule path) {depth : Nat}
    {text : String} (h : text? root depth rule = some text) :
    ∃ less < depth, ∃ value, text? root less path = some value := by
  cases depth with
  | zero => simp [text?] at h
  | succ depth =>
    rw [text?_succ, tree_ne_of_leads hl, if_neg Bool.false_ne_true] at h
    obtain ⟨leaf, hvisits, hasks⟩ := hl
    obtain ⟨_, hleaf⟩ := hvisits.exists_leafText? h
    obtain ⟨filled?, hfilled, _⟩ := Option.map_eq_some_iff.mp hleaf
    obtain ⟨less, hless, hvalue⟩ := hasks.exists_text? hfilled
    exact ⟨less, by omega, hvalue⟩

/-! ### What leads to texts that end, ends -/

theorem exists_allTexts? {parts : List Composite.Tree}
    (h : ∀ t ∈ parts, ∃ depth text, treeText? root (leafText? root depth) t = some text) :
    ∃ depth texts, allTexts? root (leafText? root depth) parts = some texts := by
  induction parts with
  | nil => exact ⟨0, [], by rw [allTexts?]⟩
  | cons t parts ih =>
    obtain ⟨d₁, text, htext⟩ := h t List.mem_cons_self
    obtain ⟨d₂, texts, htexts⟩ := ih fun u hu => h u (List.mem_cons_of_mem t hu)
    refine ⟨max d₁ d₂, text :: texts, ?_⟩
    rw [allTexts?, treeText?_mono (leafText?_mono (Nat.le_max_left d₁ d₂)) htext,
      allTexts?_mono (leafText?_mono (Nat.le_max_right d₁ d₂)) htexts]
    rfl

theorem exists_firstText? {parts : List Composite.Tree}
    (h : ∀ before t after, parts = before ++ t :: after → Blank root before →
      ∃ depth text, treeText? root (leafText? root depth) t = some text) :
    ∃ depth text, firstText? root (leafText? root depth) parts = some text := by
  induction parts with
  | nil => exact ⟨0, "", by rw [firstText?]⟩
  | cons t parts ih =>
    obtain ⟨d₁, first, hfirst⟩ := h [] t parts rfl (fun _ h => by cases h)
    by_cases hempty : first.isEmpty
    · have hblank : ∃ depth, treeText? root (leafText? root depth) t = some "" :=
        ⟨d₁, by rw [hfirst, String.isEmpty_iff.mp hempty]⟩
      -- the operands after an empty one count, with that one among those before them
      obtain ⟨d₂, text, htext⟩ := ih fun before u after hu hb => by
        refine h (t :: before) u after ?_ (List.forall_mem_cons.mpr ⟨hblank, hb⟩)
        rw [hu, List.cons_append]
      refine ⟨max d₁ d₂, text, ?_⟩
      rw [firstText?, treeText?_mono (leafText?_mono (Nat.le_max_left d₁ d₂)) hfirst,
        Option.bind_eq_bind, Option.bind_some, if_pos hempty]
      exact firstText?_mono (leafText?_mono (Nat.le_max_right d₁ d₂)) htext
    · refine ⟨d₁, first, ?_⟩
      rw [firstText?, hfirst, Option.bind_eq_bind, Option.bind_some, if_neg hempty]
      rfl

theorem exists_treeText? : ∀ {t : Composite.Tree},
    (∀ leaf, Visits root t leaf → ∃ depth text, leafText? root depth leaf = some text) →
    ∃ depth text, treeText? root (leafText? root depth) t = some text
  | .plain rule, h => by
    obtain ⟨depth, text, htext⟩ := h rule (.plain rule)
    exact ⟨depth, text, by rw [treeText?, htext]⟩
  | .join .all parts, h => by
    obtain ⟨depth, texts, htexts⟩ := exists_allTexts? fun t (ht : t ∈ parts) =>
      exists_treeText? fun leaf hleaf => h leaf (.all ht hleaf)
    exact ⟨depth, joinedLines texts, by rw [treeText?, htexts]; rfl⟩
  | .join .any parts, h => by
    obtain ⟨depth, text, htext⟩ : ∃ depth text,
        firstText? root (leafText? root depth) parts = some text := by
      refine exists_firstText? fun before t after hparts hb => ?_
      have ht : t ∈ parts := by rw [hparts]; exact List.mem_append_right _ List.mem_cons_self
      refine exists_treeText? fun leaf hleaf => h leaf ?_
      rw [hparts]
      exact .any hb hleaf
    exact ⟨depth, text, by rw [treeText?, htext]⟩
  | .join .interleave parts, _ => by
    simp only [treeText?]
    exact ⟨0, _, rfl⟩
termination_by t => sizeOf t
decreasing_by
  all_goals
    have := List.sizeOf_lt_of_mem ht
    simp only [Composite.Tree.join.sizeOf_spec]
    omega

/-- The template is filled in when what stands in it is, and the path that it becomes ends. -/
theorem exists_spanText?_of_ends {inner : List Char}
    (hinner : ∃ depth filled?, substitute? root depth inner = some filled?)
    (hpath : ∀ {depth filled?}, substitute? root depth inner = some filled? →
      Ends root ('$' :: '.' :: filled?.getD inner)) :
    ∃ depth, (spanText? root depth inner).isSome := by
  obtain ⟨d₁, filled?, hfilled⟩ := hinner
  obtain ⟨d₂, value, hvalue⟩ := hpath hfilled
  refine ⟨max d₁ d₂, ?_⟩
  rw [spanText?]
  split
  · rfl
  · rw [substitute?_mono (Nat.le_max_left d₁ d₂) hfilled, Option.bind_some,
      text?_mono (Nat.le_max_right d₁ d₂) hvalue]
    rfl

/-- A text is filled in when all paths that this asks for end.  What stands in a template is shorter
than the text, so that the templates within are filled in before. -/
theorem exists_substitute? {text : List Char} (h : ∀ path, Asks root text path → Ends root path) :
    ∃ depth filled?, substitute? root depth text = some filled? := by
  -- on the length: the text in a template is filled in first, and asks for nothing more
  induction hn : text.length using Nat.strong_induction_on generalizing text with
  | _ n ih =>
    subst hn
    have hspans : ∀ inner ∈ (spans templateTags text).inners,
        ∃ depth, (spanText? root depth inner).isSome := by
      intro inner hinner
      by_cases hdeep : spanDepth templateTags inner < maxTemplateDepth
      · have hlen : inner.length < text.length := by
          have := Rule.length_of_mem_inners hinner
          simp only [templateTags, List.length_cons] at this
          omega
        refine exists_spanText?_of_ends (ih _ hlen (fun path hpath => ?_) rfl) fun hfilled => ?_
        · exact h path (.within hinner hdeep hpath)
        · exact h _ (.here hinner hdeep hfilled)
      · exact ⟨0, by rw [spanText?, if_pos (Nat.le_of_not_lt hdeep)]; rfl⟩
    obtain ⟨depth, hdepth⟩ := exists_depth_forall_mem
      (P := fun depth inner => (spanText? root depth inner).isSome)
      (fun hle hsome => by
        obtain ⟨value?, hvalue⟩ := Option.isSome_iff_exists.mp hsome
        exact Option.isSome_of_eq_some (spanText?_mono hle hvalue)) hspans
    obtain ⟨filled, hfilled⟩ := Option.isSome_iff_exists.mp (Spans.fillM_isSome_iff.mpr hdepth)
    cases hspan : (spans templateTags text).hasSpan with
    | false => exact ⟨depth + 1, none, by rw [substitute?_succ, hspan]; rfl⟩
    | true => exact ⟨depth + 1, some filled, by rw [substitute?_succ, hspan, hfilled]; rfl⟩

/-- **A step outwards**: a rule ends when all paths that it leads to do. -/
theorem ends_of_leads {rule : List Char} (h : ∀ path, Leads root rule path → Ends root path) :
    Ends root rule := by
  cases hempty : (trim rule).isEmpty with
  | true => exact ⟨1, "", by rw [text?_succ, if_pos hempty]⟩
  | false =>
    obtain ⟨depth, text, htext⟩ : ∃ depth text,
        treeText? root (leafText? root depth) (Composite.tree (trim rule)) = some text := by
      refine exists_treeText? fun leaf hleaf => ?_
      obtain ⟨depth, filled?, hfilled⟩ := exists_substitute? fun path hpath =>
        h path ⟨leaf, hleaf, hpath⟩
      exact ⟨depth, _, by rw [leafText?, hfilled, Option.map_some]⟩
    exact ⟨depth + 1, text, by rw [text?_succ, hempty, if_neg Bool.false_ne_true, htext]⟩

/-! ### When lookups end -/

/-- **When a rule ends**: if and only if no endless row of paths starts at it, each of which a
template of the one before it becomes when it is filled in. -/
theorem ends_iff (root : Json) (rule : List Char) :
    Ends root rule ↔
      ¬ ∃ paths : Nat → List Char, paths 0 = rule ∧ ∀ i, Leads root (paths i) (paths (i + 1)) :=
  exists_depth_iff_no_row (fun htext hpath => hpath.exists_text? htext) ends_of_leads rule

/-! ### A path that leads to itself -/

/-- The rule that `selfRoot` holds: what is at `$.a` is the path to look up. -/
def selfRule : List Char := "\x7b$.\x7b$.a\x7d\x7d".toList

/-- A value whose field `a` is the rule that looks it up. -/
def selfRoot : Json := .object [("a", .string (String.ofList selfRule))]

/-- A text with the one template of `selfRule` looks up `selfRule` after the mark of the root. -/
theorem asks_selfRule {text : List Char}
    (h : (spans templateTags text).inners = ["\x7b$.a\x7d".toList]) :
    Asks selfRoot text ('$' :: '.' :: selfRule) := by
  have hfill : substitute? selfRoot 4 "\x7b$.a\x7d".toList = some (some selfRule) := by cbv
  refine @Asks.here selfRoot text _ (some selfRule) 4 ?_ (by decide) hfill
  rw [h]
  exact List.mem_cons_self

/-- **A value can keep its lookup going**: `selfRule` has no text on `selfRoot`. -/
theorem selfRule_never_ends : ¬ Ends selfRoot selfRule := by
  have hself : Leads selfRoot ('$' :: '.' :: selfRule) ('$' :: '.' :: selfRule) := by
    refine ⟨'$' :: '.' :: selfRule, ?_, asks_selfRule (by cbv)⟩
    have htree : Composite.tree (trim ('$' :: '.' :: selfRule)) =
        .plain ('$' :: '.' :: selfRule) := by cbv
    rw [htree]
    exact .plain _
  have hleads : Leads selfRoot selfRule ('$' :: '.' :: selfRule) := by
    refine ⟨selfRule, ?_, asks_selfRule (by cbv)⟩
    have htree : Composite.tree (trim selfRule) = .plain selfRule := by cbv
    rw [htree]
    exact .plain _
  rintro ⟨depth, text, htext⟩
  obtain ⟨less, _, value, hvalue⟩ := hleads.exists_text? htext
  exact not_exists_depth_of_leads_self (fun htext hpath => hpath.exists_text? htext) hself
    ⟨less, value, hvalue⟩

end Scrape.JsonPath
