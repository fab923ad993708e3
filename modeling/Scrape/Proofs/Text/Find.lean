import Mathlib.Data.List.Infix
import Mathlib.Order.Bounds.Basic
import Scrape.Text.Find

/-!
# Text — Find, its laws

A found text is where the search says it is: `after?` reads a prefix off (`after?_eq_some_iff`), the
two sides of a cut put the text together again (`eq_append_of_cut?`), and a text is contained in
another when it is an infix of it (`contains_iff`).  Of the places at which it occurs, counted in
characters (`OccursAt`), the first cut is made at the least and the last cut at the greatest
(`isLeast_of_cut?`, `isGreatest_of_cutLast?`).  The pieces between the occurrences of a separator
begin with the text before the first (`splitOn_of_cut?`), and put together again they are the text
(`intercalate_splitOn`).  A text without the first character of what is looked for is passed over
(`cut?_append_of_not_mem`), and a text is broken at the first character of a kind
(`breakAt_append`).
-/

namespace Scrape.Text

/-! ### Prefixes -/

theorem after?_append (lead s : List Char) : after? lead (lead ++ s) = some s := by
  induction lead with
  | nil => rfl
  | cons a l ih => simpa [after?] using ih

theorem after?_eq_some_iff {lead s rest : List Char} :
    after? lead s = some rest ↔ s = lead ++ rest := by
  constructor
  · intro h
    fun_induction after? lead s with
    | case1 => simpa using h
    | case2 => simp at h
    | case3 a l s ih => rw [ih h, List.cons_append]
    | case4 => simp at h
  · rintro rfl
    exact after?_append lead rest

theorem after?_eq_none_iff {lead s : List Char} : after? lead s = none ↔ ¬ lead <+: s := by
  rw [Option.eq_none_iff_forall_ne_some]
  constructor
  · rintro h ⟨rest, rfl⟩
    exact h rest (after?_append lead rest)
  · intro h rest hrest
    exact h ⟨rest, (after?_eq_some_iff.mp hrest).symm⟩

theorem startsWith_iff {lead s : List Char} : startsWith lead s = true ↔ lead <+: s := by
  rw [startsWith, Option.isSome_iff_ne_none, ne_eq, after?_eq_none_iff, not_not]

/-! ### Cuts -/

theorem eq_append_of_cutAfter? {needle seen s before rest : List Char}
    (h : cutAfter? needle seen s = some (before, rest)) :
    seen.reverse ++ s = before ++ needle ++ rest := by
  fun_induction cutAfter? needle seen s with
  | case1 seen hn =>
    obtain ⟨rfl, rfl⟩ := by simpa using h
    simp_all
  | case2 => simp at h
  | case3 seen c s r hr =>
    obtain ⟨rfl, rfl⟩ := by simpa using h
    rw [after?_eq_some_iff.mp hr, List.append_assoc]
  | case4 seen c s _ ih => simpa using ih h

/-- The two sides of a cut, with what it was made at between them, are the text. -/
theorem eq_append_of_cut? {needle s before rest : List Char}
    (h : cut? needle s = some (before, rest)) : s = before ++ needle ++ rest := by
  simpa using eq_append_of_cutAfter? h

theorem cutAfter?_isSome_iff {needle seen s : List Char} :
    (cutAfter? needle seen s).isSome ↔ needle <:+: s := by
  fun_induction cutAfter? needle seen s with
  | case1 seen hn => simp_all
  | case2 seen hn => simpa using hn
  | case3 seen c s r hr =>
    rw [after?_eq_some_iff.mp hr]
    simpa using (List.prefix_append needle r).isInfix
  | case4 seen c s hr ih =>
    rw [ih, List.infix_cons_iff]
    have : ¬ needle <+: c :: s := by
      rintro ⟨r, h⟩
      simp [after?_eq_some_iff.mpr h.symm] at hr
    simp [this]

theorem contains_iff {needle s : List Char} : contains needle s = true ↔ needle <:+: s :=
  cutAfter?_isSome_iff

theorem cut?_eq_none_iff {needle s : List Char} : cut? needle s = none ↔ ¬ needle <:+: s := by
  rw [← contains_iff, contains, Bool.not_eq_true, Option.isSome_eq_false_iff,
    Option.isNone_iff_eq_none]

section

variable {c : Char} {l s : List Char}

theorem cutAfter?_eq_map (needle seen s : List Char) :
    cutAfter? needle seen s = (cut? needle s).map fun cut => (seen.reverse ++ cut.1, cut.2) := by
  induction s generalizing seen with
  | nil =>
    rw [cut?, cutAfter?, cutAfter?]
    split <;> simp
  | cons a s ih =>
    rw [cut?, cutAfter?, cutAfter?]
    split
    · simp
    · rw [ih (a :: seen), ih [a]]
      simp [Function.comp_def]

/-- A text without the first character of the needle is passed over. -/
theorem cut?_append_of_not_mem (hc : c ∉ s) (t : List Char) :
    cut? (c :: l) (s ++ t) = (cut? (c :: l) t).map fun cut => (s ++ cut.1, cut.2) := by
  induction s with
  | nil => simp
  | cons a s ih =>
    obtain ⟨hne, hs⟩ := List.ne_and_not_mem_of_not_mem_cons hc
    have hafter : after? (c :: l) (a :: (s ++ t)) = none := by rw [after?, if_neg hne]
    rw [List.cons_append, cut?, cutAfter?, hafter]
    dsimp only
    rw [cutAfter?_eq_map, ih hs, Option.map_map]
    rfl

/-- **The first occurrence** is the one after a text without the first character of the needle. -/
theorem cut?_append (hc : c ∉ s) (t : List Char) :
    cut? (c :: l) (s ++ (c :: l ++ t)) = some (s, t) := by
  have hstart : cut? (c :: l) (c :: l ++ t) = some ([], t) := by
    rw [cut?, List.cons_append, cutAfter?, ← List.cons_append, after?_append]
    rfl
  rw [cut?_append_of_not_mem hc, hstart, Option.map_some, List.append_nil]

end

/-! ### Places -/

section

variable {needle s before rest : List Char}

/-- `needle` stands in `s` after `i` characters. -/
def OccursAt (needle s : List Char) (i : Nat) : Prop :=
  ∃ before rest, s = before ++ needle ++ rest ∧ before.length = i

theorem exists_occursAt_iff : (∃ i, OccursAt needle s i) ↔ needle <:+: s := by
  constructor
  · rintro ⟨-, before, rest, rfl, -⟩
    exact ⟨before, rest, rfl⟩
  · rintro ⟨before, rest, rfl⟩
    exact ⟨before.length, before, rest, rfl, rfl⟩

/-- A text stands where the part of the same length is the text. -/
theorem occursAt_iff {i : Nat} :
    OccursAt needle s i ↔ i ≤ s.length ∧ (s.drop i).take needle.length = needle := by
  constructor
  · rintro ⟨before, rest, rfl, rfl⟩
    simp
  · rintro ⟨hi, htake⟩
    have hsides := List.take_append_drop needle.length (s.drop i)
    rw [htake] at hsides
    refine ⟨s.take i, (s.drop i).drop needle.length, ?_, List.length_take_of_le hi⟩
    rw [List.append_assoc, hsides, List.take_append_drop]

/-! ### The first and the last place -/

theorem cut?_at_start (h : needle <+: s) : cut? needle s = some ([], s.drop needle.length) := by
  obtain ⟨rest, rfl⟩ := h
  cases hs : needle ++ rest with
  | nil =>
    obtain ⟨rfl, rfl⟩ := List.append_eq_nil_iff.mp hs
    rfl
  | cons c t => rw [cut?, cutAfter?, ← hs, after?_append, List.drop_left]; rfl

theorem cut?_cons_of_not_at_start {c : Char} (h : ¬ needle <+: c :: s) :
    cut? needle (c :: s) = (cut? needle s).map fun cut => (c :: cut.1, cut.2) := by
  rw [cut?, cutAfter?, after?_eq_none_iff.mpr h]
  exact cutAfter?_eq_map needle [c] s

theorem length_le_of_cut? (h : cut? needle s = some (before, rest)) {i : Nat}
    (hi : OccursAt needle s i) : before.length ≤ i := by
  induction s generalizing before i with
  | nil =>
    obtain ⟨rfl, -⟩ : before = [] ∧ _ := by simpa using (eq_append_of_cut? h).symm
    exact Nat.zero_le i
  | cons c s ih =>
    by_cases hprefix : needle <+: c :: s
    · rw [cut?_at_start hprefix] at h
      cases h
      exact Nat.zero_le i
    · rw [cut?_cons_of_not_at_start hprefix] at h
      obtain ⟨cut, hcut, heq⟩ := Option.map_eq_some_iff.mp h
      cases heq
      -- the text does not stand at the start, so it stands one place further on in what is left
      obtain ⟨first, last, heq, rfl⟩ := hi
      cases first with
      | nil => exact absurd ⟨last, heq.symm⟩ hprefix
      | cons d first =>
        obtain ⟨rfl, rfl⟩ := List.cons_eq_cons.mp heq
        exact Nat.succ_le_succ (ih hcut ⟨first, last, rfl, rfl⟩)

/-- **The first cut** is made at the least place. -/
theorem isLeast_of_cut? (h : cut? needle s = some (before, rest)) :
    IsLeast {i | OccursAt needle s i} before.length :=
  ⟨⟨before, rest, eq_append_of_cut? h, rfl⟩, fun _ => length_le_of_cut? h⟩

theorem eq_append_of_cutLast? (h : cutLast? needle s = some (before, rest)) :
    s = before ++ needle ++ rest := by
  obtain ⟨cut, hcut, heq⟩ := Option.map_eq_some_iff.mp h
  cases heq
  simpa using congrArg List.reverse (eq_append_of_cut? hcut)

/-- **The last cut** is made at the greatest place. -/
theorem isGreatest_of_cutLast? (h : cutLast? needle s = some (before, rest)) :
    IsGreatest {i | OccursAt needle s i} before.length := by
  refine ⟨⟨before, rest, eq_append_of_cutLast? h, rfl⟩, ?_⟩
  rintro - ⟨first, last, heq, rfl⟩
  obtain ⟨cut, hcut, hpair⟩ := Option.map_eq_some_iff.mp h
  have hlast : OccursAt needle.reverse s.reverse last.length :=
    ⟨last.reverse, first.reverse, by simp [heq], List.length_reverse⟩
  have hle := length_le_of_cut? hcut hlast
  have hsum := congrArg List.length (heq.symm.trans (eq_append_of_cutLast? h))
  cases hpair
  simp only [List.length_append, List.length_reverse] at hsum ⊢
  omega

theorem cutLast?_eq_none_iff : cutLast? needle s = none ↔ ¬ needle <:+: s := by
  rw [cutLast?, Option.map_eq_none_iff, cut?_eq_none_iff, List.reverse_infix]

end

/-! ### Pieces between separators -/

theorem splitAfter_of_absent {separator s : List Char} (found : List (List Char))
    (h : ¬ separator <:+: s) : splitAfter separator found s = (s :: found).reverse := by
  rw [splitAfter]
  split
  · rfl
  · have hc := cut?_eq_none_iff.mpr h
    split
    · rfl
    · simp_all

theorem splitAfter_of_cut? {separator s before rest : List Char} (found : List (List Char))
    (hs : separator ≠ []) (hc : cut? separator s = some (before, rest)) :
    splitAfter separator found s = splitAfter separator (before :: found) rest := by
  rw [splitAfter, dif_neg hs]
  split
  · simp_all
  · next before' rest' hc' =>
    obtain ⟨rfl, rfl⟩ := by simpa [hc] using hc'
    rfl

/-- The pieces found before do not change those that are found after them. -/
theorem splitAfter_eq {separator : List Char} (hs : separator ≠ []) (found : List (List Char))
    (s : List Char) : splitAfter separator found s = found.reverse ++ splitOn separator s := by
  induction hn : s.length using Nat.strong_induction_on generalizing found s with
  | _ n ih =>
    subst hn
    cases hc : cut? separator s with
    | none =>
      have h := cut?_eq_none_iff.mp hc
      rw [splitOn, splitAfter_of_absent found h, splitAfter_of_absent [] h]
      simp
    | some cut =>
      obtain ⟨before, rest⟩ := cut
      have hlen : rest.length < s.length := by
        have := length_cut? hc
        have := List.length_pos_iff.mpr hs
        omega
      rw [splitOn, splitAfter_of_cut? found hs hc, splitAfter_of_cut? [] hs hc,
        ih _ hlen (before :: found) rest rfl, ih _ hlen [before] rest rfl]
      simp

theorem splitOn_of_absent {separator s : List Char} (h : ¬ separator <:+: s) :
    splitOn separator s = [s] :=
  splitAfter_of_absent [] h

theorem splitOn_of_cut? {separator s before rest : List Char} (hs : separator ≠ [])
    (hc : cut? separator s = some (before, rest)) :
    splitOn separator s = before :: splitOn separator rest := by
  rw [splitOn, splitAfter_of_cut? [] hs hc, splitAfter_eq hs [before] rest]
  rfl

theorem splitOn_ne_nil {separator : List Char} (hs : separator ≠ []) (s : List Char) :
    splitOn separator s ≠ [] := by
  cases hc : cut? separator s with
  | none =>
    rw [splitOn_of_absent (cut?_eq_none_iff.mp hc)]
    exact List.cons_ne_nil _ _
  | some cut =>
    obtain ⟨before, rest⟩ := cut
    rw [splitOn_of_cut? hs hc]
    exact List.cons_ne_nil _ _

/-- A text without the first character of the separator is part of the first piece. -/
theorem splitOn_append_of_not_mem {c : Char} {l s : List Char} (hc : c ∉ s) (t : List Char) :
    splitOn (c :: l) (s ++ t) = (splitOn (c :: l) t).modifyHead (s ++ ·) := by
  have hcut := cut?_append_of_not_mem (l := l) hc t
  cases ht : cut? (c :: l) t with
  | none =>
    rw [ht, Option.map_none] at hcut
    rw [splitOn_of_absent (cut?_eq_none_iff.mp hcut), splitOn_of_absent (cut?_eq_none_iff.mp ht)]
    rfl
  | some cut =>
    obtain ⟨before, rest⟩ := cut
    rw [ht, Option.map_some] at hcut
    rw [splitOn_of_cut? (List.cons_ne_nil c l) hcut, splitOn_of_cut? (List.cons_ne_nil c l) ht]
    rfl

/-- The first piece is what stands before the first separator. -/
theorem splitOn_append {c : Char} {s : List Char} (hc : c ∉ s) (t : List Char) :
    splitOn [c] (s ++ c :: t) = s :: splitOn [c] t :=
  splitOn_of_cut? (List.cons_ne_nil c []) (cut?_append hc t)

theorem splitOn_of_not_mem {c : Char} {l s : List Char} (hc : c ∉ s) : splitOn (c :: l) s = [s] :=
  splitOn_of_absent fun h => hc (h.subset List.mem_cons_self)

/-- The text with every one of some character replaced. -/
theorem replaceAll_singleton (c : Char) (replacement s : List Char) :
    replaceAll [c] replacement s = s.flatMap fun d => if d = c then replacement else [d] := by
  induction s with
  | nil => rw [replaceAll, splitOn_of_not_mem List.not_mem_nil]; rfl
  | cons d s ih =>
    obtain ⟨first, pieces, hpieces⟩ :=
      List.exists_cons_of_ne_nil (splitOn_ne_nil (List.cons_ne_nil c []) s)
    rw [List.flatMap_cons, ← ih, replaceAll, replaceAll]
    by_cases hd : d = c
    · rw [if_pos hd, hd, ← List.nil_append (c :: s), splitOn_append List.not_mem_nil, hpieces]
      rfl
    · have hne : c ∉ [d] := fun hc => hd (List.mem_singleton.mp hc).symm
      have hsplit : splitOn [c] (d :: s) = (d :: first) :: pieces :=
        (splitOn_append_of_not_mem hne s).trans (by rw [hpieces]; rfl)
      rw [if_neg hd, hsplit, hpieces]
      cases pieces <;> rfl

/-- The pieces between separators are parts of the text. -/
theorem infix_of_mem_splitOn {separator : List Char} (hs : separator ≠ []) {s piece : List Char}
    (h : piece ∈ splitOn separator s) : piece <:+: s := by
  induction hn : s.length using Nat.strongRecOn generalizing s with
  | ind n ih =>
    by_cases habsent : separator <:+: s
    · obtain ⟨⟨before, rest⟩, hcut⟩ :=
        Option.ne_none_iff_exists'.mp (mt cut?_eq_none_iff.mp (not_not_intro habsent))
      have heq := eq_append_of_cut? hcut
      rw [splitOn_of_cut? hs hcut, List.mem_cons] at h
      rcases h with rfl | h
      · exact ⟨[], separator ++ rest, by simp [heq]⟩
      · have hlt : rest.length < n := by
          have := length_cut? hcut
          have := List.length_pos_iff.mpr hs
          omega
        refine (ih rest.length hlt h rfl).trans ⟨before ++ separator, [], ?_⟩
        simp [heq]
    · rw [splitOn_of_absent habsent, List.mem_singleton] at h
      exact h ▸ List.infix_refl _

/-- Every character of a text is one of the separator or of a piece. -/
theorem mem_separator_or_piece {separator : List Char} (hs : separator ≠ []) {s : List Char}
    {c : Char} (hc : c ∈ s) : c ∈ separator ∨ ∃ piece ∈ splitOn separator s, c ∈ piece := by
  induction hn : s.length using Nat.strongRecOn generalizing s with
  | ind n ih =>
    cases hcut : cut? separator s with
    | none =>
      rw [splitOn_of_absent (cut?_eq_none_iff.mp hcut)]
      exact .inr ⟨s, List.mem_singleton_self s, hc⟩
    | some cut =>
      obtain ⟨before, rest⟩ := cut
      have hlt : rest.length < n := by
        have := length_cut? hcut
        have := List.length_pos_iff.mpr hs
        omega
      rw [splitOn_of_cut? hs hcut]
      rw [eq_append_of_cut? hcut, List.mem_append, List.mem_append] at hc
      rcases hc with (hc | hc) | hc
      · exact .inr ⟨before, List.mem_cons_self, hc⟩
      · exact .inl hc
      · exact (ih rest.length hlt hc rfl).imp_right fun ⟨piece, hpiece, hmem⟩ =>
          ⟨piece, List.mem_cons_of_mem before hpiece, hmem⟩

/-- Text that is split and put together again is itself. -/
theorem intercalate_splitOn (separator s : List Char) :
    separator.intercalate (splitOn separator s) = s := by
  by_cases hs : separator = []
  · rw [splitOn, splitAfter, dif_pos hs]
    simp [List.intercalate]
  · induction hn : s.length using Nat.strongRecOn generalizing s with
    | ind n ih =>
      cases hcut : cut? separator s with
      | none =>
        rw [splitOn_of_absent (cut?_eq_none_iff.mp hcut)]
        simp [List.intercalate]
      | some cut =>
        obtain ⟨before, rest⟩ := cut
        have hlt : rest.length < n := by
          have := length_cut? hcut
          have := List.length_pos_iff.mpr hs
          omega
        rw [splitOn_of_cut? hs hcut,
          List.intercalate_cons_of_ne_nil (splitOn_ne_nil hs rest), ih rest.length hlt rest rfl,
          ← eq_append_of_cut? hcut]

/-! ### Breaking -/

/-- A text is taken as long as its characters are of a kind. -/
theorem span_append {p : Char → Bool} {s t : List Char} (hs : ∀ c ∈ s, p c = true)
    (ht : ∀ c ∈ t.head?, p c = false) : (s ++ t).span p = (s, t) := by
  rw [List.span_eq_takeWhile_dropWhile, List.takeWhile_append_of_pos hs,
    List.dropWhile_append_of_pos hs]
  cases t with
  | nil => simp
  | cons c t => simp [ht c rfl]

/-- A text is broken where the first character of a kind stands. -/
theorem breakAt_append {p : Char → Bool} {s t : List Char} (hs : ∀ c ∈ s, p c = false)
    (ht : ∀ c ∈ t.head?, p c = true) : breakAt p (s ++ t) = (s, t) :=
  span_append (by simpa using hs) (by simpa using ht)

end Scrape.Text
