import Mathlib.Data.List.Sort
import Scrape.Rule.IndexSet

/-!
# Rule — Range

The positions that a range of an index set names in a list.  The bounds of a range are brought into
the list one by one, each to the position next to it (`IndexSet.clamp`).  A range that goes over a
part of the list then names positions of that part only, but one that lies beside the list, with
both bounds past its end or both before its start, names the position at that end.

Main statement (`positions_range_iff`): a range names the positions it covers, in steps from the one
next to its first bound, if and only if it does not lie beside the list.
-/

namespace Scrape.Rule.IndexSet

/-! ### What a range covers -/

/-- The first bound of a range, counted from the start of a list of a length. -/
def firstBound (first : Option Int) (length : Nat) : Int := fromStart (first.getD 0) length

/-- The last bound of a range, counted from the start of a list of a length. -/
def lastBound (last : Option Int) (length : Nat) : Int :=
  fromStart (last.getD ((length : Int) - 1)) length

/-- The positions in a list of a length that lie between two bounds, both included, in the order
from the first bound to the second. -/
def covered (a b : Int) (length : Nat) : List Nat :=
  let inside := (List.range length).filter fun i : Nat => min a b ≤ (i : Int) ∧ (i : Int) ≤ max a b
  if a ≤ b then inside else inside.reverse

/-- The positions that lie whole steps away from the first one. -/
def inSteps (step : Nat) : List Nat → List Nat
  | []        => []
  | i :: more => (i :: more).filter fun j => step ∣ ((j : Int) - i).natAbs

/-- Both bounds lie past the end of a list of a length, or both before its start. -/
def LiesBeside (a b : Int) (length : Nat) : Prop :=
  ((length : Int) ≤ a ∧ (length : Int) ≤ b) ∨ (a < 0 ∧ b < 0)

instance (a b : Int) (length : Nat) : Decidable (LiesBeside a b length) :=
  inferInstanceAs (Decidable (_ ∨ _))

variable {a b : Int} {length fuel start stop step i : Nat}

theorem mem_covered_iff :
    i ∈ covered a b length ↔ i < length ∧ min a b ≤ (i : Int) ∧ (i : Int) ≤ max a b := by
  unfold covered
  split <;> simp [-inf_le_iff, -le_sup_iff]

theorem pairwise_inSteps {R : Nat → Nat → Prop} {places : List Nat} (h : places.Pairwise R) :
    (inSteps step places).Pairwise R := by
  cases places with
  | nil => exact .nil
  | cons first more => exact List.Pairwise.filter _ h

theorem covered_eq_nil_iff (hlength : 0 < length) :
    covered a b length = [] ↔ LiesBeside a b length := by
  unfold LiesBeside
  constructor
  · intro hnil
    by_contra hbeside
    -- the position next to the smaller bound is covered
    have hmem : (max 0 (min a b)).toNat ∈ covered a b length := by
      rw [mem_covered_iff]
      omega
    rw [hnil] at hmem
    cases hmem
  · intro hbeside
    refine List.eq_nil_iff_forall_not_mem.mpr fun i hi => ?_
    rw [mem_covered_iff] at hi
    omega

/-- What is covered going up, from the position next to the first bound on. -/
theorem covered_of_le (hle : a ≤ b) (hstart : (start : Int) = max 0 a)
    (hstop : (stop : Int) = min b (length - 1)) :
    covered a b length = List.range' start (stop + 1 - start) := by
  have hsorted : (covered a b length).Pairwise (· < ·) := by
    rw [covered, if_pos hle]
    exact List.pairwise_lt_range.filter _
  refine hsorted.eq_of_mem_iff List.pairwise_lt_range' fun i => ?_
  rw [mem_covered_iff, List.mem_range'_1]
  omega

/-- What is covered going down, from the position next to the first bound on. -/
theorem covered_of_lt (hlt : b < a) (hstart : (start : Int) = min a (length - 1))
    (hstop : (stop : Int) = max 0 b) :
    covered a b length = (List.range' stop (start + 1 - stop)).reverse := by
  have hsorted : (covered a b length).Pairwise (· > ·) := by
    rw [covered, if_neg (by omega)]
    exact List.pairwise_reverse.mpr (List.pairwise_lt_range.filter _)
  have hrange : (List.range' stop (start + 1 - stop)).reverse.Pairwise (· > ·) :=
    List.pairwise_reverse.mpr List.pairwise_lt_range'
  refine hsorted.eq_of_mem_iff hrange fun i => ?_
  rw [mem_covered_iff, List.mem_reverse, List.mem_range'_1]
  omega

/-! ### What a range names -/

theorem mem_upTo_iff (hstep : 0 < step) (hfuel : stop + 1 - start ≤ fuel) :
    i ∈ upTo fuel start stop step ↔ start ≤ i ∧ i ≤ stop ∧ step ∣ i - start := by
  fun_induction upTo fuel start stop step with
  | case1 => simp; omega
  | case2 fuel start stop step hlt => simp; omega
  | case3 fuel start stop step hge ih =>
    rw [List.mem_cons, ih hstep (by omega)]
    constructor
    · rintro (rfl | ⟨hle, hstop, k, hk⟩)
      · simp; omega
      · exact ⟨by omega, hstop, k + 1, by rw [Nat.mul_add]; omega⟩
    · rintro ⟨hle, hstop, k, hk⟩
      cases k with
      | zero => exact .inl (by omega)
      | succ k =>
        rw [Nat.mul_add] at hk
        exact .inr ⟨by omega, hstop, k, by omega⟩

theorem pairwise_upTo (hstep : 0 < step) : (upTo fuel start stop step).Pairwise (· < ·) := by
  have hbound {fuel start stop step i : Nat} (hi : i ∈ upTo fuel start stop step) : start ≤ i := by
    fun_induction upTo fuel start stop step with
    | case1 => cases hi
    | case2 => cases hi
    | case3 fuel start stop step hge ih =>
      rcases List.mem_cons.mp hi with rfl | hi
      · exact Nat.le_refl _
      · exact Nat.le_of_add_right_le (ih hi)
  fun_induction upTo fuel start stop step with
  | case1 => exact .nil
  | case2 => exact .nil
  | case3 fuel start stop step hge ih =>
    refine List.pairwise_cons.mpr ⟨fun i hi => ?_, ih hstep⟩
    have := hbound hi
    omega

theorem mem_downTo_iff (hstep : 0 < step) (hfuel : start + 1 - stop ≤ fuel) :
    i ∈ downTo fuel start stop step ↔ stop ≤ i ∧ i ≤ start ∧ step ∣ start - i := by
  fun_induction downTo fuel start stop step with
  | case1 => simp; omega
  | case2 fuel start stop step hlt => simp; omega
  | case3 fuel start stop step hge ih =>
    split
    · next hlt =>
      rw [List.mem_singleton]
      constructor
      · rintro rfl
        simp; omega
      · rintro ⟨hstop, hle, hdvd⟩
        have := Nat.eq_zero_of_dvd_of_lt hdvd (by omega)
        omega
    · next hle =>
      rw [List.mem_cons, ih hstep (by omega)]
      constructor
      · rintro (rfl | ⟨hstop, hstart, k, hk⟩)
        · simp; omega
        · exact ⟨hstop, by omega, k + 1, by rw [Nat.mul_add]; omega⟩
      · rintro ⟨hstop, hstart, k, hk⟩
        cases k with
        | zero => exact .inl (by omega)
        | succ k =>
          rw [Nat.mul_add] at hk
          exact .inr ⟨hstop, by omega, k, by omega⟩

theorem pairwise_downTo (hstep : 0 < step) : (downTo fuel start stop step).Pairwise (· > ·) := by
  have hbound {fuel start stop step i : Nat} (hi : i ∈ downTo fuel start stop step) :
      i ≤ start := by
    fun_induction downTo fuel start stop step with
    | case1 => cases hi
    | case2 => cases hi
    | case3 fuel start stop step hge ih =>
      rcases List.mem_cons.mp hi with rfl | hi
      · exact Nat.le_refl _
      · split at hi
        · cases hi
        · exact (ih hi).trans (Nat.sub_le _ _)
  fun_induction downTo fuel start stop step with
  | case1 => exact .nil
  | case2 => exact .nil
  | case3 fuel start stop step hge ih =>
    split
    · exact List.pairwise_singleton _ _
    · refine List.pairwise_cons.mpr ⟨fun i hi => ?_, ih hstep⟩
      have := hbound hi
      omega

/-- Going up over a part of the list, the steps are taken on what is covered. -/
theorem upTo_eq_inSteps (hstep : 0 < step) (hle : start ≤ stop) (hfuel : stop + 1 - start ≤ fuel) :
    upTo fuel start stop step = inSteps step (List.range' start (stop + 1 - start)) := by
  obtain ⟨n, hn⟩ : ∃ n, stop + 1 - start = n + 1 := ⟨stop - start, by omega⟩
  have hsorted : (inSteps step (List.range' start (n + 1))).Pairwise (· < ·) :=
    pairwise_inSteps List.pairwise_lt_range'
  rw [hn]
  refine (pairwise_upTo hstep).eq_of_mem_iff hsorted fun i => ?_
  rw [mem_upTo_iff hstep hfuel, List.range'_succ, inSteps, ← List.range'_succ]
  simp only [List.mem_filter, List.mem_range'_1, decide_eq_true_eq]
  constructor
  · rintro ⟨hstart, hstop, hdvd⟩
    exact ⟨by omega, by rwa [show ((i : Int) - start).natAbs = i - start by omega]⟩
  · rintro ⟨⟨hstart, hstop⟩, hdvd⟩
    exact ⟨hstart, by omega, by rwa [show i - start = ((i : Int) - start).natAbs by omega]⟩

/-- Going down over a part of the list, the steps are taken on what is covered. -/
theorem downTo_eq_inSteps (hstep : 0 < step) (hle : stop ≤ start)
    (hfuel : start + 1 - stop ≤ fuel) :
    downTo fuel start stop step =
      inSteps step (List.range' stop (start + 1 - stop)).reverse := by
  obtain ⟨n, hn⟩ : ∃ n, start + 1 - stop = n + 1 := ⟨start - stop, by omega⟩
  have hlast : stop + n = start := by omega
  have hreverse : (List.range' stop (n + 1)).reverse = start :: (List.range' stop n).reverse := by
    rw [List.range'_concat, List.reverse_append, Nat.one_mul, hlast]
    rfl
  have hdown : (List.range' stop (n + 1)).reverse.Pairwise (· > ·) :=
    List.pairwise_reverse.mpr List.pairwise_lt_range'
  have hsorted : (inSteps step (List.range' stop (n + 1)).reverse).Pairwise (· > ·) :=
    pairwise_inSteps hdown
  rw [hn]
  refine (pairwise_downTo hstep).eq_of_mem_iff hsorted fun i => ?_
  rw [mem_downTo_iff hstep hfuel, hreverse, inSteps, ← hreverse]
  simp only [List.mem_filter, List.mem_reverse, List.mem_range'_1, decide_eq_true_eq]
  constructor
  · rintro ⟨hstop, hstart, hdvd⟩
    exact ⟨by omega, by rwa [show ((i : Int) - start).natAbs = start - i by omega]⟩
  · rintro ⟨⟨hstop, hstart⟩, hdvd⟩
    exact ⟨hstop, by omega, by rwa [show start - i = ((i : Int) - start).natAbs by omega]⟩

/-- A step beyond the largest one leads out of any list, as the largest one does. -/
theorem inSteps_min (hlength : length ≤ maxStep) {places : List Nat}
    (hplaces : ∀ i ∈ places, i < length) (n : Nat) :
    inSteps (max 1 (min n maxStep)) places = inSteps (max 1 n) places := by
  rcases Nat.le_total n maxStep with hle | hge
  · rw [Nat.min_eq_left hle]
  · cases places with
    | nil => rfl
    | cons first more =>
      rw [inSteps, inSteps]
      refine List.filter_congr fun i hi => ?_
      have hi := hplaces i hi
      have hfirst := hplaces first List.mem_cons_self
      have hzero {k : Nat} (hk : maxStep ≤ k) :
          k ∣ ((i : Int) - first).natAbs ↔ ((i : Int) - first).natAbs = 0 :=
        ⟨fun h => Nat.eq_zero_of_dvd_of_lt h (by omega), fun h => h ▸ Nat.dvd_zero k⟩
      rw [decide_eq_decide, hzero (by omega), hzero (by omega)]

/-- A range that goes over a part of the list names what it covers there, in steps. -/
theorem positions_range_of_not_liesBeside (hpos : 0 < length) (hlength : length ≤ maxStep)
    (first last : Option Int) (step : Int)
    (h : ¬ LiesBeside (firstBound first length) (lastBound last length) length) :
    positions length (.range first last step) = inSteps (max 1 step.natAbs)
      (covered (firstBound first length) (lastBound last length) length) := by
  generalize ha : firstBound first length = a at *
  generalize hb : lastBound last length = b at *
  have hstart : ((clamp (first.getD 0) length : Nat) : Int) = max 0 (min ((length : Int) - 1) a) := by
    rw [clamp, ← firstBound, ha]
    omega
  have hstop : ((clamp (last.getD ((length : Int) - 1)) length : Nat) : Int) =
      max 0 (min ((length : Int) - 1) b) := by
    rw [clamp, ← lastBound, hb]
    omega
  rw [positions, if_neg hpos.ne']
  dsimp only
  generalize clamp (first.getD 0) length = start at *
  generalize clamp (last.getD ((length : Int) - 1)) length = stop at *
  rw [← inSteps_min hlength (fun i hi => (mem_covered_iff.mp hi).1)]
  have hstep : 0 < max 1 (min step.natAbs maxStep) := by omega
  generalize max 1 (min step.natAbs maxStep) = k at *
  unfold LiesBeside at h
  rcases Int.lt_or_le b a with hlt | hle
  · have hcovered : covered a b length = (List.range' stop (start + 1 - stop)).reverse :=
      covered_of_lt hlt (by omega) (by omega)
    by_cases hgo : start ≤ stop
    · -- both bounds lead to one position
      have heq : start = stop := by omega
      subst heq
      rw [if_pos hgo, hcovered, upTo_eq_inSteps hstep hgo (by omega),
        show start + 1 - start = 1 by omega]
      rfl
    · rw [if_neg hgo, hcovered, downTo_eq_inSteps hstep (by omega) (by omega)]
  · have hcovered : covered a b length = List.range' start (stop + 1 - start) :=
      covered_of_le hle (by omega) (by omega)
    rw [if_pos (by omega), hcovered, upTo_eq_inSteps hstep (by omega) (by omega)]

/-- A range that lies beside the list names the position at that end. -/
theorem positions_range_of_liesBeside (hpos : 0 < length) (first last : Option Int) (step : Int)
    (h : LiesBeside (firstBound first length) (lastBound last length) length) :
    positions length (.range first last step) =
      [if firstBound first length < 0 then 0 else length - 1] := by
  have hends : clamp (first.getD 0) length =
        (if firstBound first length < 0 then 0 else length - 1) ∧
      clamp (last.getD ((length : Int) - 1)) length = clamp (first.getD 0) length := by
    rw [clamp, clamp, ← firstBound, ← lastBound]
    unfold LiesBeside at h
    split <;> omega
  obtain ⟨fuel, rfl⟩ : ∃ fuel, length = fuel + 1 := ⟨length - 1, by omega⟩
  rw [positions, if_neg hpos.ne']
  dsimp only
  rw [hends.2, if_pos (Nat.le_refl _), hends.1, upTo, if_neg (Nat.lt_irrefl _)]
  refine congrArg (List.cons _) (List.eq_nil_iff_forall_not_mem.mpr fun i hi => ?_)
  have := (mem_upTo_iff (by omega) (by omega)).mp hi
  omega

/-- **A range names the positions it covers**, in steps of at least one from the one next to its
first bound on towards its last bound, if and only if it does not lie beside the list.  A range that
does covers nothing, and names the position at that end of the list. -/
theorem positions_range_iff (hpos : 0 < length) (hlength : length ≤ maxStep)
    (first last : Option Int) (step : Int) :
    (positions length (.range first last step) = inSteps (max 1 step.natAbs)
        (covered (firstBound first length) (lastBound last length) length) ↔
      ¬ LiesBeside (firstBound first length) (lastBound last length) length) ∧
    (LiesBeside (firstBound first length) (lastBound last length) length →
      covered (firstBound first length) (lastBound last length) length = [] ∧
      positions length (.range first last step) =
        [if firstBound first length < 0 then 0 else length - 1]) := by
  have hbeside (h : LiesBeside (firstBound first length) (lastBound last length) length) :
      covered (firstBound first length) (lastBound last length) length = [] ∧
      positions length (.range first last step) =
        [if firstBound first length < 0 then 0 else length - 1] :=
    ⟨(covered_eq_nil_iff hpos).mpr h, positions_range_of_liesBeside hpos first last step h⟩
  refine ⟨⟨fun heq h => ?_, positions_range_of_not_liesBeside hpos hlength first last step⟩,
    hbeside⟩
  rw [(hbeside h).1, (hbeside h).2] at heq
  cases heq

/-- A range from the fourth position past the end of five down to the second, in twos. -/
theorem positions_range_downward :
    0 < 5 ∧ 5 ≤ maxStep ∧
    (positions 5 (.range (some 8) (some 1) (-2)) = inSteps 2 (covered 8 1 5) ↔
      ¬ LiesBeside 8 1 5) ∧
    positions 5 (.range (some 8) (some 1) (-2)) = [4, 2] :=
  ⟨by decide, by decide,
    (positions_range_iff (by decide) (by decide) (some 8) (some 1) (-2)).1, by decide⟩

/-- The range that is written `7:9` covers nothing of a list of five, and picks the last of them. -/
theorem pastRange_picks_last :
    (ofBracket? "7:9".toList).map (·.indices 5) = some [4] ∧
    positions 5 (.range (some 7) (some 9) 1) = [4] ∧
    inSteps 1 (covered (firstBound (some 7) 5) (lastBound (some 9) 5) 5) = [] :=
  ⟨by decide +kernel, by decide, by decide⟩

end Scrape.Rule.IndexSet
