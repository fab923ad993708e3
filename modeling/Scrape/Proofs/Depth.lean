import Mathlib.Order.WellFounded

/-!
# Depth

Evaluations that are given a depth.  One that keeps its result when it is given more needs one depth
for all members of a list if it needs one for each (`exists_depth_forall_mem`).  And where a task
leads to others, each of which needs less depth than it, the depth is there if and only if no
endless row of tasks starts at it, each of which the one before it leads to
(`exists_depth_iff_no_row`).
-/

namespace Scrape

variable {α β : Type}

/-- **A common depth**: one that is enough for each member of a list. -/
theorem exists_depth_forall_mem {P : Nat → α → Prop}
    (mono : ∀ {depth more : Nat} {a : α}, depth ≤ more → P depth a → P more a) {l : List α}
    (h : ∀ a ∈ l, ∃ depth, P depth a) : ∃ depth, ∀ a ∈ l, P depth a := by
  induction l with
  | nil => exact ⟨0, by simp⟩
  | cons a l ih =>
    rw [List.forall_mem_cons] at h
    obtain ⟨d₁, h₁⟩ := h.1
    obtain ⟨d₂, h₂⟩ := ih h.2
    refine ⟨max d₁ d₂, List.forall_mem_cons.mpr ⟨mono (Nat.le_max_left _ _) h₁, fun b hb => ?_⟩⟩
    exact mono (Nat.le_max_right _ _) (h₂ b hb)

/-! ### Endless rows -/

section

variable {run? : Nat → α → Option β} {leads : α → α → Prop}

/-- A task that leads to itself has no depth. -/
theorem not_exists_depth_of_leads_self
    (inward : ∀ {depth : Nat} {a b : α} {r : β}, run? depth a = some r → leads a b →
      ∃ less < depth, ∃ r', run? less b = some r')
    {a : α} (h : leads a a) : ¬ ∃ depth r, run? depth a = some r := by
  rintro ⟨depth, r, hr⟩
  induction depth using Nat.strong_induction_on generalizing r with
  | _ depth ih =>
    obtain ⟨less, hless, r', hr'⟩ := inward hr h
    exact ih less hless r' hr'

/-- **When there is a depth**: if and only if no endless row of tasks starts at a task, each of
which the one before it leads to. -/
theorem exists_depth_iff_no_row
    (inward : ∀ {depth : Nat} {a b : α} {r : β}, run? depth a = some r → leads a b →
      ∃ less < depth, ∃ r', run? less b = some r')
    (outward : ∀ {a : α}, (∀ b, leads a b → ∃ depth r, run? depth b = some r) →
      ∃ depth r, run? depth a = some r) (a : α) :
    (∃ depth r, run? depth a = some r) ↔
      ¬ ∃ row : Nat → α, row 0 = a ∧ ∀ i, leads (row i) (row (i + 1)) := by
  rw [← not_acc_iff_exists_descending_chain (r := fun b a => leads a b), not_not]
  constructor
  · rintro ⟨depth, r, hr⟩
    -- the depth goes down along every row, so that none is endless
    induction depth using Nat.strong_induction_on generalizing a r with
    | _ depth ih =>
      refine Acc.intro a fun b hb => ?_
      obtain ⟨less, hless, r', hr'⟩ := inward hr hb
      exact ih less hless b r' hr'
  · intro h
    induction h with
    | intro a _ ih => exact outward ih

end

end Scrape
