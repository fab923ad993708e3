import Mathlib
import Scrape.Rule.Composite

/-!
# Rule — Turn

Results in turns.  A merge goes round by round: a round gives the next item of each list that has one
left, in the order of the lists.  The item `j` of the list `i` is given in the round `j`; before it
come the items that the lists before `i` give up to this round and that the others give before it.
Their number is the place of the item (`place`).

The items are ordered by their rounds first and by their lists then (`place_lt_place_iff`), and every
place below the number of all items is the place of one (`exists_place_eq`).

Main statement (`combine_interleave_fair`): the loop that merges until the number of items is reached
ends, and gives each item once, at its place.
-/

namespace Scrape.Rule.Composite

variable {α : Type}

/-- The round-robin merge as a loop: rounds go on until there are `total` items after those of `out`
that have been given; nothing if that is not reached after so many rounds. -/
def mergeFrom? (total : Nat) : Nat → List α → List (List α) → Option (List α)
  | 0,     out, _     => if total ≤ out.length then some out else none
  | n + 1, out, lists =>
    if total ≤ out.length then some out
    else mergeFrom? total n (out ++ lists.filterMap List.head?) (lists.map List.tail)

/-- The round-robin merge of all items; nothing if it has not ended after so many rounds. -/
def merge? (n : Nat) (lists : List (List α)) : Option (List α) :=
  mergeFrom? (lists.map List.length).sum n [] lists

/-- The length of the longest list. -/
def longest (lists : List (List α)) : Nat := (lists.map List.length).foldl max 0

/-- The number of items that are given in `n` rounds. -/
def given (n : Nat) (lists : List (List α)) : Nat := (lists.map fun l => min l.length n).sum

/-- The place at which the item `j` of the list `i` is given. -/
def place (lists : List (List α)) (i j : Nat) : Nat :=
  given (j + 1) (lists.take i) + given j (lists.drop i)

/-- The list `i` has an item `j`. -/
def HasItem (lists : List (List α)) (i j : Nat) : Prop := ∃ l, lists[i]? = some l ∧ j < l.length

variable {lists : List (List α)} {n m i j i' j' p : Nat}

/-! ### What is given in some rounds -/

theorem given_zero (lists : List (List α)) : given 0 lists = 0 := by
  simp [given]

theorem given_nil (n : Nat) : given n ([] : List (List α)) = 0 := rfl

theorem given_cons (n : Nat) (l : List α) (lists : List (List α)) :
    given n (l :: lists) = min l.length n + given n lists := rfl

/-- The first round gives the first items, the others give what is left. -/
theorem given_succ (n : Nat) (lists : List (List α)) :
    given (n + 1) lists =
      (lists.filterMap List.head?).length + given n (lists.map List.tail) := by
  induction lists with
  | nil => rfl
  | cons l lists ih =>
    cases l with
    | nil => simpa [given_cons, List.filterMap_cons] using ih
    | cons x l =>
      simp only [given_cons, List.filterMap_cons, List.head?_cons, List.map_cons, List.tail_cons,
        List.length_cons, ih]
      omega

theorem given_mono (lists : List (List α)) (h : n ≤ m) : given n lists ≤ given m lists := by
  induction lists with
  | nil => exact Nat.le_refl _
  | cons l lists ih =>
    simp only [given_cons]
    omega

theorem length_rounds (n : Nat) (lists : List (List α)) :
    (rounds n lists).length = given n lists := by
  induction n generalizing lists with
  | zero => exact (given_zero lists).symm
  | succ n ih => rw [rounds, List.length_append, ih, given_succ]

/-- Once the longest list has ended, all items are given. -/
theorem given_eq_sum (h : ∀ l ∈ lists, l.length ≤ n) :
    given n lists = (lists.map List.length).sum := by
  refine congrArg List.sum (List.map_congr_left fun l hl => ?_)
  exact Nat.min_eq_left (h l hl)

theorem le_foldl_max {ns : List Nat} (h : n ≤ m ∨ n ∈ ns) : n ≤ ns.foldl max m := by
  induction ns generalizing m with
  | nil => simpa using h
  | cons k ns ih =>
    refine ih ?_
    rcases h with h | h
    · exact .inl (Nat.le_trans h (Nat.le_max_left m k))
    · rcases List.mem_cons.mp h with rfl | h
      · exact .inl (Nat.le_max_right m n)
      · exact .inr h

theorem length_le_longest {l : List α} (hl : l ∈ lists) : l.length ≤ longest lists :=
  le_foldl_max (.inr (List.mem_map_of_mem hl))

/-! ### The loop -/

theorem length_le_of_mem_tails (h : ∀ l ∈ lists, l.length ≤ n + 1) :
    ∀ l ∈ lists.map List.tail, l.length ≤ n := by
  intro t ht
  obtain ⟨l, hl, rfl⟩ := List.mem_map.mp ht
  have := h l hl
  rw [List.length_tail]
  omega

/-- No item is given after the longest list has ended. -/
theorem rounds_of_le (h : ∀ l ∈ lists, l.length ≤ m) (hle : m ≤ n) :
    rounds n lists = rounds m lists := by
  induction m generalizing n lists with
  | zero =>
    have hgiven : given n lists = given 0 lists := by
      rw [given_eq_sum h, given_eq_sum fun l hl => Nat.le_trans (h l hl) hle]
    exact List.eq_nil_of_length_eq_zero (by rw [length_rounds, hgiven, given_zero])
  | succ m ih =>
    obtain ⟨n, rfl⟩ := Nat.exists_eq_add_of_le' (Nat.le_trans (Nat.le_add_left 1 m) hle)
    rw [rounds, rounds, ih (length_le_of_mem_tails h) (by omega)]

/-- The loop ends once the longest list has ended, and has given what the rounds give. -/
theorem mergeFrom?_eq (out : List α) (h : ∀ l ∈ lists, l.length ≤ n) :
    mergeFrom? (out.length + given n lists) n out lists = some (out ++ rounds n lists) := by
  induction n generalizing out lists with
  | zero => simp [mergeFrom?, rounds, given_zero]
  | succ n ih =>
    rw [mergeFrom?]
    split
    · next hdone =>
      -- nothing is left: the remaining rounds give nothing
      have hlength : (rounds (n + 1) lists).length = 0 := by
        rw [length_rounds]
        omega
      rw [List.eq_nil_of_length_eq_zero hlength, List.append_nil]
    · have htotal : out.length + given (n + 1) lists =
          (out ++ lists.filterMap List.head?).length + given n (lists.map List.tail) := by
        rw [given_succ, List.length_append, Nat.add_assoc]
      rw [htotal, ih _ (length_le_of_mem_tails h), rounds, List.append_assoc]

theorem merge?_eq (h : longest lists ≤ n) : merge? n lists = some (interleave.combine lists) := by
  have hlongest : ∀ l ∈ lists, l.length ≤ longest lists := fun l hl => length_le_longest hl
  have hlists : ∀ l ∈ lists, l.length ≤ n := fun l hl => Nat.le_trans (hlongest l hl) h
  have hmerge := mergeFrom?_eq [] hlists
  rw [List.length_nil, Nat.zero_add, given_eq_sum hlists, List.nil_append] at hmerge
  rw [merge?, hmerge, rounds_of_le hlongest h]
  rfl

/-! ### Every item once -/

theorem heads_append_tails_perm (n : Nat) (lists : List (List α)) :
    (lists.filterMap List.head? ++ ((lists.map List.tail).map (List.take n)).flatten).Perm
      (lists.map (List.take (n + 1))).flatten := by
  induction lists with
  | nil => exact .refl _
  | cons l lists ih =>
    cases l with
    | nil => simpa [List.filterMap_cons] using ih
    | cons x l =>
      simp only [List.filterMap_cons, List.head?_cons, List.map_cons, List.tail_cons,
        List.flatten_cons, List.take_succ_cons, List.cons_append]
      refine .cons x (.trans ?_ (.append_left (l.take n) ih))
      rw [← List.append_assoc, ← List.append_assoc]
      exact .append_right _ List.perm_append_comm

/-- What `n` rounds give are the first `n` items of each list. -/
theorem rounds_perm (n : Nat) (lists : List (List α)) :
    (rounds n lists).Perm (lists.map (List.take n)).flatten := by
  induction n generalizing lists with
  | zero => simp [rounds]
  | succ n ih => exact (List.Perm.append_left _ (ih _)).trans (heads_append_tails_perm n lists)

theorem combine_interleave_perm (lists : List (List α)) :
    (interleave.combine lists).Perm lists.flatten := by
  have htake : lists.map (List.take (longest lists)) = lists := by
    refine (List.map_congr_left fun l hl => ?_).trans (List.map_id lists)
    exact List.take_of_length_le (length_le_longest hl)
  have hperm := rounds_perm (longest lists) lists
  rw [htake] at hperm
  exact hperm

/-! ### Places -/

theorem place_cons_zero (l : List α) (lists : List (List α)) (j : Nat) :
    place (l :: lists) 0 j = min l.length j + given j lists := by
  simp [place, given_nil, given_cons]

theorem place_cons_succ (l : List α) (lists : List (List α)) (i j : Nat) :
    place (l :: lists) (i + 1) j = min l.length (j + 1) + place lists i j := by
  simp [place, given_cons, Nat.add_assoc]

/-- A round later the place is that in what the first round leaves, after the first items. -/
theorem place_succ (lists : List (List α)) (i j : Nat) :
    place lists i (j + 1) =
      (lists.filterMap List.head?).length + place (lists.map List.tail) i j := by
  have hheads : ((lists.take i).filterMap List.head?).length +
      ((lists.drop i).filterMap List.head?).length = (lists.filterMap List.head?).length := by
    rw [← List.length_append, ← List.filterMap_append, List.take_append_drop]
  have htake := given_succ (j + 1) (lists.take i)
  have hdrop := given_succ j (lists.drop i)
  rw [List.map_take] at htake
  rw [List.map_drop] at hdrop
  rw [place, place, htake, hdrop, ← hheads]
  omega

theorem HasItem.succ_iff : HasItem lists i (j + 1) ↔ HasItem (lists.map List.tail) i j := by
  constructor
  · rintro ⟨l, hl, hj⟩
    refine ⟨l.tail, by rw [List.getElem?_map, hl]; rfl, ?_⟩
    rw [List.length_tail]
    omega
  · rintro ⟨t, ht, hj⟩
    rw [List.getElem?_map] at ht
    obtain ⟨l, hl, rfl⟩ := Option.map_eq_some_iff.mp ht
    rw [List.length_tail] at hj
    exact ⟨l, hl, by omega⟩

theorem hasItem_cons_succ_iff {l : List α} : HasItem (l :: lists) (i + 1) j ↔ HasItem lists i j :=
  Iff.rfl

/-- **The item at a place.**  The rounds give each item at its place. -/
theorem getElem?_rounds {l : List α} {x : α} (hl : lists[i]? = some l) (hx : l[j]? = some x)
    (hn : j < n) : (rounds n lists)[place lists i j]? = some x := by
  induction n generalizing lists l j with
  | zero => omega
  | succ n ih =>
    cases j with
    | zero =>
      -- in the first round the place is the number of first items of the lists before
      obtain ⟨hi, hget⟩ := List.getElem?_eq_some_iff.mp hl
      have hsplit : lists = lists.take i ++ l :: lists.drop (i + 1) := by
        rw [← hget, List.getElem_cons_drop, List.take_append_drop]
      have hplace : place lists i 0 = ((lists.take i).filterMap List.head?).length := by
        rw [place, given_succ, given_zero, given_zero]
        omega
      have hhead : l.head? = some x := by rw [List.head?_eq_getElem?, hx]
      rw [rounds, hplace]
      nth_rewrite 1 [hsplit]
      rw [List.filterMap_append, List.filterMap_cons, hhead, List.append_assoc]
      simp
    | succ j =>
      have htail : (lists.map List.tail)[i]? = some l.tail := by rw [List.getElem?_map, hl]; rfl
      have hitem : l.tail[j]? = some x := by rw [List.getElem?_tail, hx]
      rw [rounds, place_succ, List.getElem?_append_right (by omega), Nat.add_sub_cancel_left]
      exact ih htail hitem (by omega)

/-- What is given before a round comes before the items of the round. -/
theorem given_le_place (lists : List (List α)) (i j : Nat) : given j lists ≤ place lists i j := by
  induction lists generalizing i with
  | nil => exact Nat.zero_le _
  | cons l lists ih =>
    cases i with
    | zero => exact Nat.le_of_eq (place_cons_zero l lists j).symm
    | succ i =>
      have := ih i
      rw [place_cons_succ, given_cons]
      omega

/-- An item is given by the end of its round. -/
theorem HasItem.place_lt (h : HasItem lists i j) : place lists i j < given (j + 1) lists := by
  induction lists generalizing i with
  | nil => simp [HasItem] at h
  | cons l lists ih =>
    cases i with
    | zero =>
      obtain ⟨l, hl, hj⟩ := h
      cases hl
      have := given_mono lists (show j ≤ j + 1 by omega)
      rw [place_cons_zero, given_cons]
      omega
    | succ i =>
      have := ih (hasItem_cons_succ_iff.mp h)
      rw [place_cons_succ, given_cons]
      omega

/-- Items of earlier rounds have earlier places. -/
theorem HasItem.place_lt_of_round_lt (h : HasItem lists i j) (hj : j < j') :
    place lists i j < place lists i' j' :=
  calc place lists i j < given (j + 1) lists := h.place_lt
    _ ≤ given j' lists := given_mono lists hj
    _ ≤ place lists i' j' := given_le_place lists i' j'

/-- Within a round, items of earlier lists have earlier places. -/
theorem HasItem.place_lt_of_list_lt (h : HasItem lists i j) (hi : i < i') :
    place lists i j < place lists i' j := by
  induction lists generalizing i i' with
  | nil => simp [HasItem] at h
  | cons l lists ih =>
    obtain ⟨i', rfl⟩ := Nat.exists_eq_add_of_lt hi
    cases i with
    | zero =>
      obtain ⟨l, hl, hj⟩ := h
      cases hl
      have := given_le_place lists (0 + i') j
      rw [place_cons_zero, place_cons_succ]
      omega
    | succ i =>
      have := ih (hasItem_cons_succ_iff.mp h) (show i < i + 1 + i' by omega)
      rw [place_cons_succ, place_cons_succ]
      omega

/-- **The order of the places**: by rounds, and within a round by lists. -/
theorem place_lt_place_iff (h : HasItem lists i j) (h' : HasItem lists i' j') :
    place lists i j < place lists i' j' ↔ j < j' ∨ (j = j' ∧ i < i') := by
  constructor
  · intro hlt
    by_contra hnot
    have hback : j' < j ∨ (j' = j ∧ i' < i) ∨ (j' = j ∧ i' = i) := by omega
    rcases hback with hj | ⟨rfl, hi⟩ | ⟨rfl, rfl⟩
    · exact Nat.lt_asymm hlt (h'.place_lt_of_round_lt hj)
    · exact Nat.lt_asymm hlt (h'.place_lt_of_list_lt hi)
    · exact Nat.lt_irrefl _ hlt
  · rintro (hj | ⟨rfl, hi⟩)
    · exact h.place_lt_of_round_lt hj
    · exact h.place_lt_of_list_lt hi

theorem exists_place_zero_eq (h : p < (lists.filterMap List.head?).length) :
    ∃ i, HasItem lists i 0 ∧ place lists i 0 = p := by
  induction lists generalizing p with
  | nil => simp at h
  | cons l lists ih =>
    cases l with
    | nil =>
      obtain ⟨i, hitem, hplace⟩ := ih (by simpa [List.filterMap_cons] using h)
      exact ⟨i + 1, hitem, by simpa [place_cons_succ] using hplace⟩
    | cons x l =>
      cases p with
      | zero => exact ⟨0, ⟨x :: l, rfl, Nat.succ_pos _⟩, by simp [place_cons_zero, given_zero]⟩
      | succ p =>
        obtain ⟨i, hitem, hplace⟩ := ih (by simpa using h)
        refine ⟨i + 1, hitem, ?_⟩
        rw [place_cons_succ, hplace, List.length_cons]
        omega

/-- Every place that is reached in some rounds is the place of an item. -/
theorem exists_place_eq (h : p < given n lists) :
    ∃ i j, HasItem lists i j ∧ place lists i j = p := by
  induction n generalizing lists p with
  | zero => simp [given_zero] at h
  | succ n ih =>
    rw [given_succ] at h
    by_cases hfirst : p < (lists.filterMap List.head?).length
    · obtain ⟨i, hitem, hplace⟩ := exists_place_zero_eq hfirst
      exact ⟨i, 0, hitem, hplace⟩
    · have hlater : p - (lists.filterMap List.head?).length < given n (lists.map List.tail) := by
        omega
      obtain ⟨i, j, hitem, hplace⟩ := ih hlater
      refine ⟨i, j + 1, HasItem.succ_iff.mpr hitem, ?_⟩
      rw [place_succ, hplace]
      omega

/-- **Results in turns are a fair merge.**  For all lists, the merge ends within as many rounds as
the longest list has items, and gives every item of the lists once: the item `j` of the list `i` at
the place `place lists i j`, and at each place an item.  So the items of a list keep their order, and
all items of a round are given before the first one of the next, in the order of their lists. -/
theorem combine_interleave_fair (lists : List (List α)) :
    (∀ n, longest lists ≤ n → merge? n lists = some (interleave.combine lists)) ∧
    (interleave.combine lists).Perm lists.flatten ∧
    (∀ i j l x, lists[i]? = some l → l[j]? = some x →
      (interleave.combine lists)[place lists i j]? = some x) ∧
    (∀ p, p < (interleave.combine lists).length →
      ∃ i j, HasItem lists i j ∧ place lists i j = p) ∧
    (∀ i j i' j', HasItem lists i j → HasItem lists i' j' →
      (place lists i j < place lists i' j' ↔ j < j' ∨ (j = j' ∧ i < i'))) := by
  refine ⟨fun n h => merge?_eq h, combine_interleave_perm lists, fun i j l x hl hx => ?_,
    fun p hp => ?_, fun i j i' j' h h' => place_lt_place_iff h h'⟩
  · have hj : j < l.length := (List.getElem?_eq_some_iff.mp hx).1
    exact getElem?_rounds hl hx (Nat.lt_of_lt_of_le hj (length_le_longest (List.mem_of_getElem? hl)))
  · exact exists_place_eq (Nat.lt_of_lt_of_eq hp (length_rounds (longest lists) lists))

/-- Three lists of unequal lengths are merged in three rounds. -/
theorem combine_interleave_fair_unequal :
    merge? 3 [[1, 2, 3], [10], [20, 21]] = some [1, 10, 20, 2, 21, 3] ∧
    (interleave.combine [[1, 2, 3], [10], [20, 21]]).Perm [1, 2, 3, 10, 20, 21] ∧
    (interleave.combine [[1, 2, 3], [10], [20, 21]])[4]? = some 21 := by
  obtain ⟨hends, hperm, hplace, -, -⟩ := combine_interleave_fair [[1, 2, 3], [10], [20, 21]]
  exact ⟨(hends 3 (by decide)).trans (by decide), hperm, hplace 2 1 [20, 21] 21 rfl rfl⟩

end Scrape.Rule.Composite
