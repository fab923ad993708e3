import Mathlib.Logic.Relation
import Scrape.Chain.Select
import Scrape.Json.Path
import Scrape.Proofs.Rule.Split
import Scrape.XPath.Select

/-!
# Rule — Composite, its laws

How deep operators nest.  A rule is split on the operator that begins first at its top level, and
then that operator begins at the top level of no operand (`Absent`), nor of any operand of an operand
(`Absent.of_isOperand`).  So with each level of operands one operator less is left, and there are
three.

Main statement (`operators_nest`): operands are shorter than the rule and are not split on its
operator again, and every recursion over operands is done after three levels.
-/

namespace Scrape.Rule

open Relation (ReflTransGen)
open Scrape.Text (length_trim_le trim trim_trim)

/-! ### Splitting on one operator -/

section

variable {separators others : List (List Char)} {s p : List Char} {cut : Cuts}

/-- A piece is no longer than the rule, and shorter if the rule has a separator. -/
theorem Cutting.length_of_mem (h : Cutting separators s cut) (hp : p ∈ cut.pieces) :
    p.length ≤ s.length ∧ (cut.ended ≠ [] → p.length < s.length) := by
  induction h with
  | whole h =>
    obtain rfl : p = _ := by simpa [Cuts.pieces] using hp
    exact ⟨Nat.le_refl _, fun hne => absurd rfl hne⟩
  | @cut piece sep rest cuts _ _ hsep _ ih =>
    obtain ⟨-, hne, -, -⟩ := eq_append_of_separatorFrom? hsep
    have hpos := List.length_pos_iff.mpr hne
    have hlt : p.length < (piece ++ (sep ++ rest)).length := by
      rw [List.length_append, List.length_append]
      rw [Cuts.pieces_cons, List.mem_cons] at hp
      rcases hp with rfl | hp
      · omega
      · have := (ih hp).1
        omega
    exact ⟨Nat.le_of_lt hlt, fun _ => hlt⟩

/-- What does not begin within a rule does not begin within its pieces, if the scan passes over the
separators. -/
theorem Whole.of_mem_pieces (h : Whole others [] {} s) (hcut : Cutting separators s cut)
    (hrun : ∀ sep ∈ separators, ({} : Scan).run sep = {}) (hp : p ∈ cut.pieces) :
    Whole others [] {} p := by
  induction hcut with
  | whole _ =>
    obtain rfl : p = _ := by simpa [Cuts.pieces] using hp
    exact h
  | @cut piece sep rest cuts _ hclosed hsep _ ih =>
    rw [whole_append_iff, whole_append_iff, hclosed,
      hrun sep (eq_append_of_separatorFrom? hsep).1] at h
    rw [Cuts.pieces_cons, List.mem_cons] at hp
    rcases hp with rfl | hp
    · exact Whole.of_append (t := sep ++ rest ++ []) h.1
    · exact ih h.2.2 hp

theorem isEmpty_of_length_split (h : 2 ≤ (split separators s).length) :
    (cuts separators s).ended ≠ [] := by
  intro hnil
  simp [split, hnil] at h

theorem ne_nil_of_mem_split (hp : p ∈ split separators s)
    (hlength : 2 ≤ (split separators s).length) : p ≠ [] := by
  have hne := isEmpty_of_length_split hlength
  rw [split, if_neg (by simpa using hne)] at hp
  simpa using (List.mem_filter.mp hp).2

end

namespace Composite

theorem run_token (op : Composite) : ({} : Scan).run op.token = {} := by
  cases op <;> rfl

theorem separatorFrom?_token (op : Composite) (rest : List Char) :
    separatorFrom? [op.token] {} (op.token ++ rest) = some op.token := by
  cases op <;> exact separatorFrom?_append (by decide) (by simp [token, marks]) rest

/-- The operator begins nowhere at the top level of a rule. -/
def Absent (op : Composite) (rule : List Char) : Prop := Whole [op.token] [] {} rule

/-- The rule is split on an operator, and the part is one of the operands. -/
def IsOperand (rule part : List Char) : Prop :=
  ∃ op parts, splitComposite? rule = some (op, parts) ∧ part ∈ parts

variable {op other : Composite} {rule part : List Char} {parts : List (List Char)}

/-- The operator of a rule is the first separator of it, and the operands are what the rule is split
into on the operator alone. -/
theorem eq_split_of_splitComposite? (h : splitComposite? rule = some (op, parts)) :
    firstSeparator? (operators.map token) rule = some op.token ∧ parts = split [op.token] rule ∧
      2 ≤ parts.length := by
  unfold splitComposite? at h
  split at h
  · cases h
  · next sep hsep =>
    split at h
    · cases h
    · next found hfound =>
      have htoken : found.token = sep := by simpa using List.find?_some hfound
      dsimp only at h
      split at h
      · cases h
      · next hlength =>
        obtain ⟨rfl, rfl⟩ := Prod.mk.inj (Option.some.inj h)
        rw [htoken]
        exact ⟨hsep, rfl, by omega⟩

/-- A rule is not split on an operator that begins nowhere at its top level. -/
theorem Absent.splitComposite?_ne (h : Absent op rule) (parts : List (List Char)) :
    splitComposite? rule ≠ some (op, parts) := by
  intro hsplit
  obtain ⟨hfirst, -, -⟩ := eq_split_of_splitComposite? hsplit
  have hcut := cuts_eq_iff.mp (rfl : cuts (operators.map token) rule = _)
  rw [firstSeparator?] at hfirst
  generalize cuts (operators.map token) rule = cut at hcut hfirst
  cases hcut with
  | whole _ => cases hfirst
  | cut _ hclosed hsep _ =>
    obtain rfl : _ = op.token := by simpa using hfirst
    -- where the operator begins for the scan with all operators, it does for the scan with it alone
    have hnone := Whole.separatorFrom?_eq_none h
    rw [hclosed, separatorFrom?_token] at hnone
    cases hnone

theorem absent_of_mem_split (hpart : part ∈ split [op.token] rule) : Absent op part :=
  whole_of_mem_split hpart

theorem Absent.of_mem_split (h : Absent op rule) (hpart : part ∈ split [other.token] rule) :
    Absent op part := by
  have hcut := cuts_eq_iff.mp (rfl : cuts [other.token] rule = _)
  obtain ⟨piece, hpiece, rfl⟩ := hcut.mem_split hpart
  refine Whole.trim (Whole.of_mem_pieces h hcut ?_ hpiece)
  simpa using run_token other

theorem Absent.of_isOperand (h : Absent op rule) (hpart : IsOperand rule part) :
    Absent op part := by
  obtain ⟨other, parts, hsplit, hmem⟩ := hpart
  obtain ⟨-, rfl, -⟩ := eq_split_of_splitComposite? hsplit
  exact h.of_mem_split hmem

theorem length_of_mem_operands (h : splitComposite? rule = some (op, parts)) (hpart : part ∈ parts) :
    part.length < rule.length := by
  obtain ⟨-, rfl, hlength⟩ := eq_split_of_splitComposite? h
  have hcut := cuts_eq_iff.mp (rfl : cuts [op.token] rule = _)
  obtain ⟨piece, hpiece, rfl⟩ := hcut.mem_split hpart
  have hlt := (hcut.length_of_mem hpiece).2 (isEmpty_of_length_split hlength)
  exact Nat.lt_of_le_of_lt (length_trim_le piece) hlt

/-! ### Recursion over operands -/

/-- The results of a rule, from the results of rules without an operator, by a recursion over
operands that goes down some levels; without a result if a rule has an operator below them. -/
def composedWithin {α : Type} (leaf : List Char → List α) : Nat → List Char → Option (List α)
  | levels, rule =>
    let rule := trim rule
    if rule.isEmpty then some []
    else
      match splitComposite? rule with
      | none             => some (leaf rule)
      | some (op, parts) =>
        match levels with
        | 0          => none
        | levels + 1 => (parts.mapM (composedWithin leaf levels)).map op.combine

section

variable {α : Type} {leaf : List Char → List α}

theorem mapM_eq_some_map {f : List Char → Option (List α)} {g : List Char → List α}
    (h : ∀ p ∈ parts, f p = some (g p)) : parts.mapM f = some (parts.map g) := by
  induction parts with
  | nil => rfl
  | cons p parts ih =>
    rw [List.forall_mem_cons] at h
    rw [List.mapM_cons, h.1, ih h.2]
    rfl

theorem Tree.resultsOfAll_eq_map (leaf : List Char → List α) (trees : List Tree) :
    resultsOfAll leaf trees = trees.map (Tree.results leaf) := by
  induction trees with
  | nil => rfl
  | cons t trees ih => rw [resultsOfAll, ih, List.map_cons]

theorem Tree.results_ofRule_of_split (h : splitComposite? rule = some (op, parts)) (size : Nat) :
    (Tree.ofRule (size + 1) rule).results leaf =
      op.combine (parts.map fun part => (Tree.ofRule size part).results leaf) := by
  rw [Tree.ofRule, h]
  dsimp only
  rw [Tree.results, Tree.resultsOfAll_eq_map, List.map_map]
  rfl

theorem Tree.ofRule_of_plain (h : splitComposite? rule = none) (size : Nat) :
    Tree.ofRule size rule = .plain rule := by
  cases size with
  | zero => rfl
  | succ size => rw [Tree.ofRule, h]

/-- **As many levels as operators** are enough, of those that may begin at the top level of the
rule: the recursion gives what the tree of the rule does. -/
theorem composedWithin_of_absent {levels size : Nat} {left : List Composite} (hrule : rule ≠ [])
    (htrim : trim rule = rule) (habsent : ∀ op ∉ left, Absent op rule)
    (hlevels : left.length ≤ levels) (hsize : rule.length ≤ size) :
    composedWithin leaf levels rule = some ((Tree.ofRule size rule).results leaf) := by
  induction levels generalizing rule size left with
  | zero =>
    have hplain : splitComposite? rule = none := by
      obtain rfl : left = [] := List.length_eq_zero_iff.mp (Nat.le_zero.mp hlevels)
      rw [Option.eq_none_iff_forall_ne_some]
      rintro ⟨op, parts⟩
      exact (habsent op List.not_mem_nil).splitComposite?_ne parts
    rw [composedWithin, Tree.ofRule_of_plain hplain]
    simp [htrim, hrule, hplain, Tree.results]
  | succ levels ih =>
    cases hsplit : splitComposite? rule with
    | none =>
      rw [composedWithin, Tree.ofRule_of_plain hsplit]
      simp [htrim, hrule, hsplit, Tree.results]
    | some found =>
      obtain ⟨op, parts⟩ := found
      -- the operator is one of those that are left, and no operand has it any more
      have hop : op ∈ left := by
        by_contra hop
        exact (habsent op hop).splitComposite?_ne parts hsplit
      obtain ⟨-, hparts, hlength⟩ := eq_split_of_splitComposite? hsplit
      obtain ⟨size, rfl⟩ : ∃ n, size = n + 1 := by
        have := List.length_pos_iff.mpr hrule
        exact ⟨size - 1, by omega⟩
      have hoperand : ∀ part ∈ parts, composedWithin leaf levels part =
          some ((Tree.ofRule size part).results leaf) := by
        intro part hpart
        have hshorter := length_of_mem_operands hsplit hpart
        rw [hparts] at hpart hlength
        have hleft : (left.erase op).length ≤ levels := by
          rw [List.length_erase_of_mem hop]
          omega
        have hothers : ∀ other ∉ left.erase op, Absent other part := by
          intro other hother
          by_cases h : other = op
          · exact h ▸ absent_of_mem_split hpart
          · have hnot : other ∉ left := fun hmem => hother ((List.mem_erase_of_ne h).mpr hmem)
            exact (habsent other hnot).of_mem_split hpart
        exact ih (ne_nil_of_mem_split hpart hlength) (trim_of_mem_split hpart) hothers hleft
          (by omega)
      rw [composedWithin, Tree.results_ofRule_of_split hsplit]
      simp [htrim, hrule, hsplit, mapM_eq_some_map hoperand]

/-- **Three levels** are enough for every rule. -/
theorem composedWithin_eq_composed (leaf : List Char → List α) (rule : List Char) :
    composedWithin leaf 3 rule = some (composed leaf rule) := by
  have htrim : composedWithin leaf 3 rule = composedWithin leaf 3 (trim rule) := by
    rw [composedWithin, composedWithin, trim_trim]
  rw [htrim, composed]
  by_cases hrule : trim rule = []
  · rw [hrule, composedWithin]
    rfl
  · have hall : ∀ op ∉ operators, Absent op (trim rule) := fun op hop =>
      absurd (by cases op <;> decide) hop
    rw [composedWithin_of_absent hrule (trim_trim rule) hall (Nat.le_refl 3) (Nat.le_refl _), tree]
    simp [hrule]

end

end Composite

open Composite

/-- **Operators nest three deep.**  The operands of a rule are shorter than it, and neither an
operand nor an operand of one is split on the operator of the rule again; and the values of a path,
the nodes and the texts of a chain, and the elements and the texts of a location path come from a
recursion over operands that is done after three levels. -/
theorem operators_nest (rule : List Char) :
    (∀ op parts, splitComposite? rule = some (op, parts) → ∀ part ∈ parts,
      part.length < rule.length ∧
        ∀ inner, ReflTransGen IsOperand part inner → ∀ inners,
          splitComposite? inner ≠ some (op, inners)) ∧
    (∀ root, composedWithin (JsonPath.leafItems root) 3 rule = some (JsonPath.items root rule)) ∧
    (∀ options n, composedWithin (Chain.leafElements options n) 3 rule =
      some (Chain.elements options n rule)) ∧
    (∀ options n, composedWithin (Chain.leafStrings options n) 3 rule =
      some (Chain.strings options n rule)) ∧
    (∀ n, composedWithin (XPath.leafElements n) 3 rule = some (XPath.elements n rule)) ∧
    (∀ n, composedWithin (XPath.leafStrings n) 3 rule = some (XPath.strings n rule)) := by
  refine ⟨fun op parts hsplit part hpart => ⟨length_of_mem_operands hsplit hpart, ?_⟩,
    fun root => composedWithin_eq_composed _ rule, fun options n => composedWithin_eq_composed _ rule,
    fun options n => composedWithin_eq_composed _ rule, fun n => composedWithin_eq_composed _ rule,
    fun n => composedWithin_eq_composed _ rule⟩
  intro inner hinner
  have habsent : Absent op inner := by
    induction hinner with
    | refl =>
      obtain ⟨-, rfl, -⟩ := eq_split_of_splitComposite? hsplit
      exact absent_of_mem_split hpart
    | tail _ hoperand ih => exact ih.of_isOperand hoperand
  exact habsent.splitComposite?_ne

/-- A rule with each operator, and with `&&` once more in brackets. -/
def layeredRule : List Char := "a&&b(&&)||c%%d".toList

/-- The operand of an operand of the rule is split, though not on `&&`. -/
theorem operators_nest_layeredRule :
    splitComposite? layeredRule = some (.all, ["a".toList, "b(&&)||c%%d".toList]) ∧
      IsOperand "b(&&)||c%%d".toList "c%%d".toList ∧
      "b(&&)||c%%d".toList.length < layeredRule.length ∧
      ∀ inners, splitComposite? "c%%d".toList ≠ some (.all, inners) := by
  have hsplit : splitComposite? layeredRule =
      some (.all, ["a".toList, "b(&&)||c%%d".toList]) := by decide +kernel
  have hinner : IsOperand "b(&&)||c%%d".toList "c%%d".toList :=
    ⟨.any, ["b(&&)".toList, "c%%d".toList], by decide +kernel, by decide⟩
  obtain ⟨hlength, hnot⟩ := (operators_nest layeredRule).1 _ _ hsplit "b(&&)||c%%d".toList (by decide)
  exact ⟨hsplit, hinner, hlength, hnot _ (.single hinner)⟩

end Scrape.Rule
