import Mathlib.Data.List.Find
import Scrape.Proofs.Rule.Composite
import Scrape.Proofs.Rule.Padded

/-!
# Rule — Operands, what a rule joins

What a rule with an operator gives, from what its operands give: the results of a rule are those
of its operands, combined by its operator (`composed_of_split`).  A text is made of results by
writing one a line.  Where no result is an empty text, an operand without results is one whose text
is empty, so that the texts of the operands, put together by the operator, are the text of the
rule.

Main statement (`text_of_operands`): the text of a rule joined by `&&` or `||`, in chains and in
location paths.
-/

namespace Scrape.Rule

open Scrape.Text (isBlank trim trim_trim)

/-! ### The results of a rule -/

open Composite

variable {α : Type} {leaf : List Char → List α} {op : Composite} {rule : List Char}
  {parts : List (List Char)}

theorem splitComposite?_trim (rule : List Char) :
    splitComposite? (trim rule) = splitComposite? rule := by
  have hall : Blankless (operators.map token) := by
    simp [Blankless, operators, token, isBlank]
  have hone (op : Composite) : Blankless [op.token] := by
    cases op <;> simp [Blankless, token, isBlank]
  unfold splitComposite?
  rw [(split_trim hall rule).1]
  split
  · rfl
  · next sep _ =>
    split
    · rfl
    · next op hop =>
      have htoken : op.token = sep := by simpa using List.find?_some hop
      rw [← htoken, (split_trim (hone op) rule).2]

/-- As many levels as the rule is long, or more, give its results. -/
theorem results_ofRule {size : Nat} (hrule : rule ≠ []) (htrim : trim rule = rule)
    (hsize : rule.length ≤ size) : (Tree.ofRule size rule).results leaf = composed leaf rule := by
  have hall : ∀ op ∉ operators, Absent op rule := fun op hop =>
    absurd (by cases op <;> decide) hop
  have hwithin : composedWithin leaf 3 rule = some ((Tree.ofRule size rule).results leaf) :=
    composedWithin_of_absent hrule htrim hall (Nat.le_refl 3) hsize
  exact Option.some.inj (hwithin.symm.trans (composedWithin_eq_composed leaf rule))

/-- **The results of a rule** with an operator are those of its operands, combined. -/
theorem composed_of_split (leaf : List Char → List α)
    (h : splitComposite? rule = some (op, parts)) :
    composed leaf rule = op.combine (parts.map (composed leaf)) := by
  have hsplit := (splitComposite?_trim rule).trans h
  have hrule : trim rule ≠ [] := by
    intro hnil
    rw [hnil] at hsplit
    cases hsplit
  obtain ⟨-, hparts, hlength⟩ := eq_split_of_splitComposite? hsplit
  obtain ⟨size, hsize⟩ := Nat.exists_eq_succ_of_ne_zero (mt List.length_eq_zero_iff.mp hrule)
  rw [composed, if_neg (by simpa using hrule), tree, hsize, Tree.results_ofRule_of_split hsplit]
  refine congrArg op.combine (List.map_congr_left fun part hpart => ?_)
  have hshorter := length_of_mem_operands hsplit hpart
  rw [hparts] at hpart hlength
  exact results_ofRule (ne_nil_of_mem_split hpart hlength) (trim_of_mem_split hpart) (by omega)

theorem composed_of_plain (leaf : List Char → List α) (h : splitComposite? rule = none) :
    composed leaf rule = if (trim rule).isEmpty then [] else leaf (trim rule) := by
  rw [composed, tree, Tree.ofRule_of_plain ((splitComposite?_trim rule).trans h)]
  rfl

theorem exists_mem_of_mem_rounds {n : Nat} {lists : List (List α)} {x : α}
    (h : x ∈ rounds n lists) : ∃ l ∈ lists, x ∈ l := by
  induction n generalizing lists with
  | zero => cases h
  | succ n ih =>
    rw [rounds, List.mem_append, List.mem_filterMap] at h
    rcases h with ⟨l, hl, hx⟩ | h
    · exact ⟨l, hl, List.mem_of_mem_head? hx⟩
    · obtain ⟨rest, hrest, hx⟩ := ih h
      obtain ⟨l, hl, rfl⟩ := List.mem_map.mp hrest
      exact ⟨l, hl, List.mem_of_mem_tail hx⟩

/-- Every result of an operator is one of an operand. -/
theorem exists_mem_of_mem_combine {lists : List (List α)} {x : α} (h : x ∈ op.combine lists) :
    ∃ l ∈ lists, x ∈ l := by
  cases op with
  | all => exact List.mem_flatten.mp h
  | any =>
    rw [combine] at h
    cases hfound : lists.find? fun l => !l.isEmpty with
    | none => simp [hfound] at h
    | some l =>
      rw [hfound, Option.getD_some] at h
      exact ⟨l, List.mem_of_find?_eq_some hfound, h⟩
  | interleave => exact exists_mem_of_mem_rounds h

/-- What holds of all results of rules without an operator holds of the results of every rule. -/
theorem forall_mem_composed {P : α → Prop} (h : ∀ rule, ∀ x ∈ leaf rule, P x) (rule : List Char) :
    ∀ x ∈ composed leaf rule, P x := by
  induction hn : rule.length using Nat.strongRecOn generalizing rule with
  | ind n ih =>
    intro x hx
    cases hsplit : splitComposite? rule with
    | none =>
      rw [composed_of_plain leaf hsplit] at hx
      split at hx
      · cases hx
      · exact h _ x hx
    | some found =>
      obtain ⟨op, parts⟩ := found
      rw [composed_of_split leaf hsplit] at hx
      obtain ⟨l, hl, hx⟩ := exists_mem_of_mem_combine hx
      obtain ⟨part, hpart, rfl⟩ := List.mem_map.mp hl
      exact ih part.length (hn ▸ length_of_mem_operands hsplit hpart) part rfl x hx

/-! ### The text of a rule -/

/-- Results, one a line. -/
def lines (results : List String) : String := "\n".intercalate results

theorem lines_eq_empty_iff {results : List String} (h : ∀ s ∈ results, s ≠ "") :
    lines results = "" ↔ results = [] := by
  refine ⟨fun hlines => ?_, fun hnil => by rw [hnil, lines, String.intercalate_nil]⟩
  cases results with
  | nil => rfl
  | cons s results =>
    have hs := h s List.mem_cons_self
    cases results with
    | nil => exact absurd (by simpa [lines] using hlines) hs
    | cons t results => simp [lines, String.append_eq_empty_iff, hs] at hlines

/-- **Results of operands one a line** are the texts of the operands one a line, those without
results left out. -/
theorem lines_flatten {lists : List (List String)} (h : ∀ l ∈ lists, ∀ s ∈ l, s ≠ "") :
    lines lists.flatten = lines ((lists.map lines).filter fun s => !s.isEmpty) := by
  induction lists with
  | nil => rfl
  | cons l lists ih =>
    rw [List.forall_mem_cons] at h
    obtain ⟨hl, hlists⟩ := h
    have hrest := ih hlists
    rw [List.flatten_cons, List.map_cons]
    by_cases hnil : l = []
    · rw [hnil, List.nil_append, List.filter_cons_of_neg (by simp [lines]), hrest]
    · have hkept : (!(lines l).isEmpty) = true := by
        simpa using mt (lines_eq_empty_iff hl).mp hnil
      rw [List.filter_cons, if_pos hkept]
      -- the other operands have results if and only if one of their texts is not empty
      have hiff : lists.flatten = [] ↔ (lists.map lines).filter (fun s => !s.isEmpty) = [] := by
        rw [← lines_eq_empty_iff, hrest, lines_eq_empty_iff]
        · simp
        · simpa using fun s l hl' hs => hlists l hl' s hs
      by_cases hflat : lists.flatten = []
      · rw [hflat, hiff.mp hflat, List.append_nil, lines, lines, String.intercalate_singleton]
      · rw [lines, String.intercalate_append_of_ne_nil hnil hflat, lines,
          String.intercalate_cons_of_ne_nil (mt hiff.mpr hflat)]
        exact congrArg _ hrest

/-- The results of the first operand that has some, one a line, are the first text that is not
empty. -/
theorem lines_find? {lists : List (List String)} (h : ∀ l ∈ lists, ∀ s ∈ l, s ≠ "") :
    lines ((lists.find? fun l => !l.isEmpty).getD []) =
      ((lists.map lines).find? fun s => !s.isEmpty).getD "" := by
  have hcongr : lists.find? ((fun s => !s.isEmpty) ∘ lines) = lists.find? fun l => !l.isEmpty := by
    refine List.find?_congr fun l hl => ?_
    have hempty := lines_eq_empty_iff (h l hl)
    rw [Bool.eq_iff_iff]
    simp [hempty]
  rw [List.find?_map, hcongr]
  cases lists.find? fun l => !l.isEmpty with
  | none => rfl
  | some l => rfl

/-- **The text of a rule** with an operator, where no result is an empty text. -/
theorem lines_composed {leaf : List Char → List String} (hleaf : ∀ rule, ∀ s ∈ leaf rule, s ≠ "")
    (h : splitComposite? rule = some (op, parts)) :
    (op = .all → lines (composed leaf rule) =
      lines ((parts.map fun part => lines (composed leaf part)).filter fun s => !s.isEmpty)) ∧
    (op = .any → lines (composed leaf rule) =
      ((parts.map fun part => lines (composed leaf part)).find? fun s => !s.isEmpty).getD "") := by
  have hresults : ∀ l ∈ parts.map (composed leaf), ∀ s ∈ l, s ≠ "" := by
    intro l hl
    obtain ⟨part, -, rfl⟩ := List.mem_map.mp hl
    exact forall_mem_composed hleaf part
  have htexts : parts.map (fun part => lines (composed leaf part)) =
      (parts.map (composed leaf)).map lines := List.map_map.symm
  rw [composed_of_split leaf h, htexts]
  constructor
  · rintro rfl
    exact lines_flatten hresults
  · rintro rfl
    exact lines_find? hresults

theorem ne_empty_of_mem_chain (options : Options) (n : Node) (rule : List Char) :
    ∀ s ∈ Chain.leafStrings options n rule, s ≠ "" := by
  intro s hs
  rw [Chain.leafStrings] at hs
  split at hs
  · cases hs
  · next selection _ =>
    have hmem : s ∈ (selection.nodes.filterMap (selection.reading.read? options)).filter
        fun v => !v.isEmpty := by
      dsimp only at hs
      split at hs
      · exact List.mem_of_mem_take hs
      · exact hs
    simpa using (List.mem_filter.mp hmem).2

theorem ne_empty_of_mem_xpath (n : Node) (rule : List Char) :
    ∀ s ∈ XPath.leafStrings n rule, s ≠ "" := by
  intro s hs
  simpa using (List.mem_filter.mp hs).2

/-- **A rule means what its operands mean.**  In chains and in location paths the text of a rule
that is joined by `&&` is the texts of its operands, one a line, without those that are empty; and
the text of a rule that is joined by `||` is the first text of an operand that is not empty. -/
theorem text_of_operands (h : splitComposite? rule = some (op, parts)) (options : Options)
    (n : Node) :
    (op = .all →
      Chain.text options n rule =
        lines ((parts.map (Chain.text options n)).filter fun s => !s.isEmpty) ∧
      XPath.text n rule = lines ((parts.map (XPath.text n)).filter fun s => !s.isEmpty)) ∧
    (op = .any →
      Chain.text options n rule =
        ((parts.map (Chain.text options n)).find? fun s => !s.isEmpty).getD "" ∧
      XPath.text n rule = ((parts.map (XPath.text n)).find? fun s => !s.isEmpty).getD "") := by
  obtain ⟨hall, hany⟩ := lines_composed (ne_empty_of_mem_chain options n) h
  obtain ⟨hall', hany'⟩ := lines_composed (ne_empty_of_mem_xpath n) h
  exact ⟨fun hop => ⟨hall hop, hall' hop⟩, fun hop => ⟨hany hop, hany' hop⟩⟩

/-- A link that leads nowhere, two that lead somewhere, and a text. -/
def linkPage : Html.Element :=
  .top ⟨.html, "div", []⟩
    [.element ⟨.html, "a", [⟨.plain, "href", "#"⟩]⟩ [.text "x"],
     .element ⟨.html, "a", [⟨.plain, "href", "/1"⟩]⟩ [.text "y"],
     .element ⟨.html, "a", [⟨.plain, "href", "/2"⟩]⟩ [.text "z"],
     .element ⟨.html, "b", []⟩ [.text "t"]]

/-- Links, a link that the rule aims at alone, and a text where an element is missing. -/
def linkRule : List Char := "tag.a@href&&tag.a.1@href&&tag.i@text||tag.b@text".toList

/-- The links and the text come out one a line. -/
theorem text_of_operands_linkRule :
    splitComposite? linkRule = some (.all,
      ["tag.a@href".toList, "tag.a.1@href".toList, "tag.i@text||tag.b@text".toList]) ∧
    Chain.text {} (.element linkPage) linkRule = "/1\n/2\n/1\nt" := by
  have hsplit : splitComposite? linkRule = some (.all,
      ["tag.a@href".toList, "tag.a.1@href".toList, "tag.i@text||tag.b@text".toList]) := by
    decide +kernel
  refine ⟨hsplit, ?_⟩
  rw [((text_of_operands hsplit {} (.element linkPage)).1 rfl).1]
  decide +kernel

end Scrape.Rule
