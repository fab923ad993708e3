import Scrape.Evaluate.Suffix
import Scrape.Proofs.Text.Find

/-!
# Evaluate — Suffix, its laws

The tail of a rule begins at the first `##`: a text without it has no tail
(`splitSuffix_of_absent`), and of one with it what stands before is the rule
(`splitSuffix_of_cut?`).
-/

namespace Scrape.Evaluate

open Scrape.Text (cut? splitOn_of_cut? splitOn_of_absent)

/-- The mark that a tail begins with. -/
def suffixMark : List Char := ['#', '#']

/-- A tail that is none leaves the result as it is. -/
theorem Suffix.apply_of_isEmpty {suffix : Suffix} (h : suffix.pattern.isEmpty = true)
    (value : String) : suffix.apply value = value := by
  rw [Suffix.apply, h, Bool.or_true, if_pos rfl]

theorem splitSuffix_of_absent {rule : List Char} (h : ¬ suffixMark <:+: rule) :
    splitSuffix rule = (rule, ⟨[], [], false⟩) := by
  have hsplit : Text.splitOn ['#', '#'] rule = [rule] := splitOn_of_absent h
  rw [splitSuffix, hsplit]

theorem splitSuffix_of_cut? {rule before rest : List Char}
    (h : cut? suffixMark rule = some (before, rest)) : (splitSuffix rule).1 = before := by
  have hsplit : Text.splitOn ['#', '#'] rule = before :: Text.splitOn ['#', '#'] rest :=
    splitOn_of_cut? (List.cons_ne_nil _ _) h
  rw [splitSuffix, hsplit]
  split
  · next hnil => cases hnil
  all_goals
    next heq => exact (List.head_eq_of_cons_eq heq).symm

/-- What stands before a rule is no part of its tail, if it holds no `#`. -/
theorem splitSuffix_append {s : List Char} (h : '#' ∉ s) (rule : List Char) :
    splitSuffix (s ++ rule) = (s ++ (splitSuffix rule).1, (splitSuffix rule).2) := by
  have hne : Text.splitOn ['#', '#'] rule ≠ [] := Text.splitOn_ne_nil (List.cons_ne_nil _ _) rule
  rw [splitSuffix, splitSuffix, Text.splitOn_append_of_not_mem h]
  rcases hsplit : Text.splitOn ['#', '#'] rule with _ | ⟨main, _ | ⟨pattern, _ | ⟨text, _ | _⟩⟩⟩
  · exact absurd hsplit hne
  all_goals rfl

end Scrape.Evaluate
