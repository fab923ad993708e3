import Scrape.Proofs.Rule.Fill
import Scrape.Proofs.Text.Blank

/-!
# Rule — Balance

How tags nest.  In a balanced text every opening tag has its closing one, read from the left, tag
by tag (`Balanced`).  What stands in a span is balanced (`balanced_of_mem_inners`), so taking it
apart at its spans, and what stands in these again, comes past no opening tag that nothing closes;
and the depth that is measured of it is the number of levels at which this finds spans
(`reaches_iff_of_balanced`).  Only in the whole text can an opening tag stay open, and it ends the
search: spans that begin after it are not found (`fillSpans?_eq_none_iff`).
-/

namespace Scrape.Rule

open Scrape.Text (after?_append after?_eq_none_iff after?_eq_some_iff cut? cut?_eq_none_iff cutAfter?
  cutAfter?_eq_map eq_append_of_cut? isBlank startsWith startsWith_iff)

variable {tags : Tags}

/-! ### Balanced texts -/

/-- A text that closes `depth` tags opened before it and all that it opens itself; the most that
are open at a place of it are `deepest`. -/
inductive Balanced (tags : Tags) : Nat → List Char → Nat → Prop where
  | nil : Balanced tags 0 [] 0
  | text {depth deepest : Nat} {c : Char} {s : List Char}
      (hclosing : ¬ tags.closing <+: c :: s) (hopening : ¬ tags.opening <+: c :: s)
      (h : Balanced tags depth s deepest) : Balanced tags depth (c :: s) deepest
  | opened {depth deepest : Nat} {s : List Char} (hclosing : ¬ tags.closing <+: tags.opening ++ s)
      (h : Balanced tags (depth + 1) s deepest) : Balanced tags depth (tags.opening ++ s) deepest
  | closed {depth deepest : Nat} {s : List Char} (h : Balanced tags depth s deepest) :
      Balanced tags (depth + 1) (tags.closing ++ s) (max (depth + 1) deepest)

theorem Balanced.le {depth deepest : Nat} {s : List Char} (h : Balanced tags depth s deepest) :
    depth ≤ deepest := by
  induction h with
  | nil => exact Nat.le_refl 0
  | text _ _ _ ih => exact ih
  | opened _ _ ih => omega
  | closed _ _ => exact Nat.le_max_left ..

/-! ### Reading tag by tag -/

theorem closeFrom?_skip (depth : Nat) (lead acc s : List Char) :
    closeFrom? tags depth lead.length acc (lead ++ s) =
      closeFrom? tags depth 0 (lead.reverse ++ acc) s := by
  induction lead generalizing acc with
  | nil => rfl
  | cons c lead ih =>
    rw [List.cons_append, List.length_cons, closeFrom?, ih]
    simp

theorem depthFrom_skip (depth deepest : Nat) (lead s : List Char) :
    depthFrom tags depth deepest lead.length (lead ++ s) = depthFrom tags depth deepest 0 s := by
  induction lead with
  | nil => rfl
  | cons c lead ih => rw [List.cons_append, List.length_cons, depthFrom, ih]

section

variable {c : Char} {s : List Char} (depth : Nat) (acc : List Char)

theorem closeFrom?_closing (hc : tags.closing ≠ []) :
    closeFrom? tags depth 0 acc (tags.closing ++ s) =
      if depth ≤ 1 then some (acc.reverse, s)
      else closeFrom? tags (depth - 1) 0 (tags.closing.reverse ++ acc) s := by
  obtain ⟨c, lead, hlead⟩ := List.exists_cons_of_ne_nil hc
  have hafter := after?_append tags.closing s
  rw [hlead, List.cons_append] at hafter ⊢
  rw [closeFrom?, hlead, hafter]
  dsimp only
  have hskip := @closeFrom?_skip tags (depth - 1) lead (c :: acc) s
  rw [List.length_cons, Nat.add_sub_cancel, hskip]
  simp

theorem closeFrom?_opening (ho : tags.opening ≠ []) (h : ¬ tags.closing <+: tags.opening ++ s) :
    closeFrom? tags depth 0 acc (tags.opening ++ s) =
      closeFrom? tags (depth + 1) 0 (tags.opening.reverse ++ acc) s := by
  obtain ⟨c, lead, hlead⟩ := List.exists_cons_of_ne_nil ho
  have hstarts : startsWith tags.opening (tags.opening ++ s) = true :=
    startsWith_iff.mpr (List.prefix_append _ _)
  have hafter := after?_eq_none_iff.mpr h
  rw [hlead, List.cons_append] at hafter hstarts ⊢
  rw [closeFrom?, hafter, hlead]
  dsimp only
  have hskip := @closeFrom?_skip tags (depth + 1) lead (c :: acc) s
  rw [if_pos hstarts, List.length_cons, Nat.add_sub_cancel, hskip]
  simp

theorem closeFrom?_text (hc : ¬ tags.closing <+: c :: s) (ho : ¬ tags.opening <+: c :: s) :
    closeFrom? tags depth 0 acc (c :: s) = closeFrom? tags depth 0 (c :: acc) s := by
  rw [closeFrom?, after?_eq_none_iff.mpr hc]
  dsimp only
  rw [if_neg (mt startsWith_iff.mp ho)]

variable (deepest : Nat)

theorem depthFrom_closing (hc : tags.closing ≠ []) :
    depthFrom tags depth deepest 0 (tags.closing ++ s) =
      depthFrom tags (depth - 1) deepest 0 s := by
  obtain ⟨c, lead, hlead⟩ := List.exists_cons_of_ne_nil hc
  have hstarts : startsWith tags.closing (tags.closing ++ s) = true :=
    startsWith_iff.mpr (List.prefix_append _ _)
  rw [hlead, List.cons_append] at hstarts ⊢
  rw [depthFrom, hlead, if_pos hstarts, List.length_cons, Nat.add_sub_cancel, depthFrom_skip]

theorem depthFrom_opening (ho : tags.opening ≠ []) (h : ¬ tags.closing <+: tags.opening ++ s) :
    depthFrom tags depth deepest 0 (tags.opening ++ s) =
      depthFrom tags (depth + 1) (max deepest (depth + 1)) 0 s := by
  obtain ⟨c, lead, hlead⟩ := List.exists_cons_of_ne_nil ho
  have hstarts : startsWith tags.opening (tags.opening ++ s) = true :=
    startsWith_iff.mpr (List.prefix_append _ _)
  have hclosing := mt startsWith_iff.mp h
  rw [hlead, List.cons_append] at hstarts hclosing ⊢
  rw [depthFrom, if_neg hclosing, hlead, if_pos hstarts, List.length_cons, Nat.add_sub_cancel,
    depthFrom_skip]

theorem depthFrom_text (hc : ¬ tags.closing <+: c :: s) (ho : ¬ tags.opening <+: c :: s) :
    depthFrom tags depth deepest 0 (c :: s) = depthFrom tags depth deepest 0 s := by
  rw [depthFrom, if_neg (mt startsWith_iff.mp hc), if_neg (mt startsWith_iff.mp ho)]

end

/-! ### What a balanced text is made of -/

section

variable {depth deepest : Nat} {s : List Char}

/-- What is read up to the tag that balances an opened one is balanced. -/
theorem balanced_of_closeFrom? (ho : tags.opening ≠ []) (hc : tags.closing ≠ [])
    {acc body rest : List Char} (h : closeFrom? tags (depth + 1) 0 acc s = some (body, rest)) :
    ∃ inner deepest, body = acc.reverse ++ inner ∧ s = inner ++ tags.closing ++ rest ∧
      Balanced tags depth inner deepest := by
  induction hn : s.length using Nat.strongRecOn generalizing s depth acc with
  | ind n ih =>
    by_cases hclosing : tags.closing <+: s
    · obtain ⟨s, rfl⟩ := hclosing
      have hlt : s.length < n := by
        have := List.length_pos_iff.mpr hc
        rw [List.length_append] at hn
        omega
      rw [closeFrom?_closing _ _ hc] at h
      cases depth with
      | zero =>
        obtain ⟨rfl, rfl⟩ := by simpa using h
        exact ⟨[], 0, by simp, by simp, .nil⟩
      | succ depth =>
        rw [if_neg (by omega)] at h
        obtain ⟨inner, deepest, rfl, rfl, hinner⟩ := ih _ hlt h rfl
        exact ⟨tags.closing ++ inner, _, by simp, by simp, .closed hinner⟩
    · by_cases hopening : tags.opening <+: s
      · obtain ⟨s, rfl⟩ := hopening
        have hlt : s.length < n := by
          have := List.length_pos_iff.mpr ho
          rw [List.length_append] at hn
          omega
        rw [closeFrom?_opening _ _ ho hclosing] at h
        obtain ⟨inner, deepest, rfl, rfl, hinner⟩ := ih _ hlt h rfl
        refine ⟨tags.opening ++ inner, deepest, by simp, by simp, .opened (mt ?_ hclosing) hinner⟩
        exact fun hpre => hpre.trans ⟨tags.closing ++ rest, by simp⟩
      · cases s with
        | nil => cases h
        | cons c s =>
          rw [closeFrom?_text _ _ hclosing hopening] at h
          obtain ⟨inner, deepest, rfl, rfl, hinner⟩ :=
            ih _ (by rw [← hn, List.length_cons]; exact Nat.lt_succ_self _) h rfl
          have hpre : c :: inner <+: c :: (inner ++ tags.closing ++ rest) :=
            ⟨tags.closing ++ rest, by simp⟩
          exact ⟨c :: inner, deepest, by simp, by simp,
            .text (fun h => hclosing (h.trans hpre)) (fun h => hopening (h.trans hpre)) hinner⟩

/-- The depth that is measured of a balanced text is the most tags that are open in it. -/
theorem depthFrom_of_balanced (ho : tags.opening ≠ []) (hc : tags.closing ≠ [])
    (h : Balanced tags depth s deepest) {most : Nat} (hmost : depth ≤ most) :
    depthFrom tags depth most 0 s = max most deepest := by
  induction h generalizing most with
  | nil => rw [depthFrom, Nat.max_zero]
  | text hclosing hopening h ih => rw [depthFrom_text _ _ hclosing hopening, ih hmost]
  | opened hclosing h ih =>
    rw [depthFrom_opening _ _ ho hclosing, ih (Nat.le_max_right ..)]
    have := h.le
    omega
  | closed h ih =>
    rw [depthFrom_closing _ _ hc, Nat.add_sub_cancel, ih (by omega)]
    omega

/-- A balanced text closes, where `depth + 1` tags are open, the innermost of them but for `open`
more, and goes on with a balanced text. -/
theorem Balanced.exists_closeFrom? (ho : tags.opening ≠ []) (hc : tags.closing ≠ []) (more : Nat)
    (h : Balanced tags (depth + 1 + more) s deepest) (acc : List Char) :
    ∃ inner rest m₁ m₂, closeFrom? tags (more + 1) 0 acc s = some (acc.reverse ++ inner, rest) ∧
      s = inner ++ tags.closing ++ rest ∧ Balanced tags more inner m₁ ∧
      Balanced tags depth rest m₂ ∧ deepest = max (depth + 1 + m₁) m₂ := by
  generalize htotal : depth + 1 + more = total at h
  induction h generalizing more acc with
  | nil => omega
  | @text total deepest c s hclosing hopening h ih =>
    obtain ⟨inner, rest, m₁, m₂, hclose, rfl, hinner, hrest, hm⟩ := ih more (c :: acc) htotal
    have hpre : c :: inner <+: c :: (inner ++ tags.closing ++ rest) :=
      ⟨tags.closing ++ rest, by simp⟩
    refine ⟨c :: inner, rest, m₁, m₂, ?_, by simp, ?_, hrest, hm⟩
    · rw [closeFrom?_text _ _ hclosing hopening, hclose]
      simp
    · exact .text (fun h => hclosing (h.trans hpre)) (fun h => hopening (h.trans hpre)) hinner
  | @opened total deepest s hclosing h ih =>
    have hmore : depth + 1 + (more + 1) = total + 1 := by omega
    obtain ⟨inner, rest, m₁, m₂, hclose, rfl, hinner, hrest, hm⟩ :=
      ih (more + 1) (tags.opening.reverse ++ acc) hmore
    refine ⟨tags.opening ++ inner, rest, m₁, m₂, ?_, by simp, .opened (mt ?_ hclosing) hinner,
      hrest, hm⟩
    · rw [closeFrom?_opening _ _ ho hclosing, hclose]
      simp
    · exact fun hpre => hpre.trans ⟨tags.closing ++ rest, by simp⟩
  | @closed total deepest s h ih =>
    rw [closeFrom?_closing _ _ hc]
    cases more with
    | zero =>
      obtain rfl : depth = total := by omega
      exact ⟨[], s, 0, deepest, by simp, by simp, .nil, h, by simp⟩
    | succ more =>
      have hmore : depth + 1 + more = total := by omega
      obtain ⟨inner, rest, m₁, m₂, hclose, rfl, hinner, hrest, hm⟩ :=
        ih more (tags.closing.reverse ++ acc) hmore
      refine ⟨tags.closing ++ inner, rest, max (more + 1) m₁, m₂, ?_, by simp, .closed hinner,
        hrest, by omega⟩
      rw [if_neg (by omega), Nat.add_sub_cancel, hclose]
      simp

end

/-! ### The ends of a balanced text -/

section

variable {depth deepest : Nat} {c : Char} {s : List Char}

/-- A character of no tag is no loss at the beginning of a balanced text. -/
theorem Balanced.tail (ho : tags.opening ≠ []) (hc : tags.closing ≠ [])
    (hmem : c ∉ tags.opening ++ tags.closing) (h : Balanced tags depth (c :: s) deepest) :
    Balanced tags depth s deepest := by
  rw [List.mem_append, not_or] at hmem
  generalize hs : c :: s = t at h
  cases h with
  | nil => cases hs
  | text _ _ h =>
    obtain ⟨rfl, rfl⟩ := List.cons.inj hs
    exact h
  | opened _ _ =>
    obtain ⟨a, lead, hlead⟩ := List.exists_cons_of_ne_nil ho
    rw [hlead] at hs
    refine absurd ?_ hmem.1
    rw [List.head_eq_of_cons_eq hs, hlead]
    exact List.mem_cons_self
  | closed _ =>
    obtain ⟨a, lead, hlead⟩ := List.exists_cons_of_ne_nil hc
    rw [hlead] at hs
    refine absurd ?_ hmem.2
    rw [List.head_eq_of_cons_eq hs, hlead]
    exact List.mem_cons_self

/-- What stands before a character of no tag, when a tag stands at the beginning. -/
theorem exists_eq_append_of_append_singleton {lead s t : List Char} (hmem : c ∉ lead)
    (h : s ++ [c] = lead ++ t) : ∃ r, s = lead ++ r ∧ t = r ++ [c] := by
  rcases List.append_eq_append_iff.mp h with ⟨r, hlead, hr⟩ | ⟨r, hs, ht⟩
  · cases r with
    | nil =>
      refine ⟨[], by simpa using hlead.symm, ?_⟩
      simpa using hr.symm
    | cons a r =>
      refine absurd ?_ hmem
      rw [hlead, List.head_eq_of_cons_eq hr]
      simp
  · exact ⟨r, hs, ht⟩

/-- A character of no tag is no loss at the end of a balanced text. -/
theorem Balanced.dropLast (hmem : c ∉ tags.opening ++ tags.closing)
    (h : Balanced tags depth (s ++ [c]) deepest) : Balanced tags depth s deepest := by
  rw [List.mem_append, not_or] at hmem
  have hpre (t : List Char) : t <+: t ++ [c] := List.prefix_append t [c]
  generalize ht : s ++ [c] = t at h
  induction h generalizing s with
  | nil => exact absurd ht (List.append_ne_nil_of_right_ne_nil s (List.cons_ne_nil c []))
  | @text depth deepest a t hclosing hopening h ih =>
    cases s with
    | nil =>
      obtain ⟨-, rfl⟩ := List.cons.inj ht
      exact h
    | cons b s =>
      obtain ⟨rfl, rfl⟩ := List.cons.inj ht
      exact .text (fun h => hclosing (h.trans (hpre (b :: s))))
        (fun h => hopening (h.trans (hpre (b :: s)))) (ih rfl)
  | opened hclosing h ih =>
    obtain ⟨r, rfl, rfl⟩ := exists_eq_append_of_append_singleton hmem.1 ht
    refine .opened (fun h => hclosing (h.trans ?_)) (ih rfl)
    rw [← List.append_assoc]
    exact hpre _
  | closed h ih =>
    obtain ⟨r, rfl, rfl⟩ := exists_eq_append_of_append_singleton hmem.2 ht
    exact .closed (ih rfl)

/-- A balanced text is balanced when it is trimmed, if no tag holds a blank. -/
theorem Balanced.trim (ho : tags.opening ≠ []) (hc : tags.closing ≠ [])
    (hblank : ∀ c ∈ tags.opening ++ tags.closing, isBlank c = false)
    (h : Balanced tags depth s deepest) : Balanced tags depth (Text.trim s) deepest := by
  have hmem {c : Char} (hb : isBlank c = true) : c ∉ tags.opening ++ tags.closing := fun hmem =>
    Bool.false_ne_true ((hblank c hmem).symm.trans hb)
  obtain ⟨before, after, hbefore, hafter, hs⟩ := Text.exists_eq_append_trim s
  rw [hs] at h
  have hrest : Balanced tags depth (Text.trim s ++ after) deepest := by
    clear hs
    induction before with
    | nil => exact h
    | cons c before ih =>
      rw [List.forall_mem_cons] at hbefore
      exact ih (h.tail ho hc (hmem hbefore.1)) hbefore.2
  clear h hs
  induction after using List.reverseRecOn with
  | nil => simpa using hrest
  | append_singleton after c ih =>
    rw [← List.append_assoc] at hrest
    exact ih (fun d hd => hafter d (by simp [hd])) (hrest.dropLast (hmem (hafter c (by simp))))

end

/-! ### Spans, one after the other -/

section

variable {s before body inner rest : List Char}

theorem spansFrom_eq (found : List (List Char × List Char)) (s : List Char) :
    spansFrom tags found s =
      ⟨found.reverse ++ (spansFrom tags [] s).spans, (spansFrom tags [] s).tail⟩ := by
  induction hn : s.length using Nat.strongRecOn generalizing s found with
  | ind n ih =>
    rw [spansFrom, spansFrom.eq_def tags [] s]
    split
    · simp
    · next ho =>
      split
      · simp
      · next before body hcut =>
        split
        · simp
        · next inner rest hclose =>
          have hlt : rest.length < n := by
            have := Text.length_cut? hcut
            have := length_closeFrom? hclose
            have := List.length_pos_iff.mpr ho
            omega
          rw [ih _ hlt _ rest rfl, ih _ hlt [(before, inner)] rest rfl]
          simp

theorem spans_of_cut? (ho : tags.opening ≠ []) (hc : tags.closing ≠ [])
    (hcut : cut? tags.opening s = some (before, body))
    (hclose : closeFrom? tags 1 0 [] body = some (inner, rest)) :
    spans tags s = ⟨(before, inner) :: (spans tags rest).spans, (spans tags rest).tail⟩ := by
  have hne : ¬ (tags.opening.isEmpty || tags.closing.isEmpty) = true := by simp [ho, hc]
  rw [spans, spans, if_neg hne, if_neg hne, spansFrom, dif_neg ho]
  split
  · simp_all
  · next before' body' hcut' =>
    obtain ⟨rfl, rfl⟩ : before = before' ∧ body = body' := by simpa [hcut] using hcut'
    split
    · simp_all
    · next inner' rest' hclose' =>
      obtain ⟨rfl, rfl⟩ : inner = inner' ∧ rest = rest' := by simpa [hclose] using hclose'
      rw [spansFrom_eq]
      rfl

/-- The search ends at an opening tag that nothing balances. -/
theorem spans_of_not_closed (hcut : cut? tags.opening s = some (before, body))
    (hclose : closeFrom? tags 1 0 [] body = none) : spans tags s = ⟨[], s⟩ := by
  rw [spans]
  split
  · rfl
  · rw [spansFrom]
    split
    · rfl
    · split
      · rfl
      · next before' body' hcut' =>
        obtain ⟨rfl, rfl⟩ : before = before' ∧ body = body' := by simpa [hcut] using hcut'
        split
        · rfl
        · simp_all

theorem ne_nil_of_mem_inners (h : inner ∈ (spans tags s).inners) :
    tags.opening ≠ [] ∧ tags.closing ≠ [] := by
  by_contra hne
  have hempty : (tags.opening.isEmpty || tags.closing.isEmpty) = true := by
    rw [Bool.or_eq_true, List.isEmpty_iff, List.isEmpty_iff]
    tauto
  rw [spans, if_pos hempty] at h
  cases h

/-- **What stands in a span is balanced.** -/
theorem balanced_of_mem_inners (h : inner ∈ (spans tags s).inners) :
    ∃ deepest, Balanced tags 0 inner deepest := by
  obtain ⟨ho, hc⟩ := ne_nil_of_mem_inners h
  induction hn : s.length using Nat.strongRecOn generalizing s with
  | ind n ih =>
    cases hcut : cut? tags.opening s with
    | none =>
      rw [spans_of_absent (cut?_eq_none_iff.mp hcut)] at h
      cases h
    | some cut =>
      obtain ⟨before, body⟩ := cut
      cases hclose : closeFrom? tags 1 0 [] body with
      | none =>
        rw [spans_of_not_closed hcut hclose] at h
        cases h
      | some closed =>
        obtain ⟨first, rest⟩ := closed
        rw [spans_of_cut? ho hc hcut hclose, Spans.inners_cons, List.mem_cons] at h
        rcases h with rfl | h
        · obtain ⟨inner', deepest, hinner, -, hbalanced⟩ := balanced_of_closeFrom? ho hc hclose
          obtain rfl : inner = inner' := hinner
          exact ⟨deepest, hbalanced⟩
        · have hlt : rest.length < n := by
            have := Text.length_cut? hcut
            have := length_closeFrom? hclose
            have := List.length_pos_iff.mpr ho
            omega
          exact ih _ hlt h rfl

end

/-! ### Levels -/

/-- A text with spans in spans, `n` levels deep. -/
inductive Reaches (tags : Tags) : Nat → List Char → Prop where
  | zero (s : List Char) : Reaches tags 0 s
  | succ {n : Nat} {s inner : List Char} (hinner : inner ∈ (spans tags s).inners)
      (h : Reaches tags n inner) : Reaches tags (n + 1) s

/-- A text in which every opening tag that the search for spans meets is closed, in the spans
again, at every level. -/
inductive Complete (tags : Tags) : List Char → Prop where
  | mk {s : List Char} (htail : ¬ tags.opening <:+: (spans tags s).tail)
      (hinners : ∀ inner ∈ (spans tags s).inners, Complete tags inner) : Complete tags s

/-- In a balanced text either no tag is opened, or the first is that of a span, after which the
text is balanced. -/
theorem Balanced.cut? (ho : tags.opening ≠ []) (hc : tags.closing ≠ []) {deepest : Nat}
    {s : List Char} (h : Balanced tags 0 s deepest) :
    (¬ tags.opening <:+: s ∧ deepest = 0) ∨
      ∃ before body inner rest m₁ m₂, cut? tags.opening s = some (before, body) ∧
        closeFrom? tags 1 0 [] body = some (inner, rest) ∧ Balanced tags 0 inner m₁ ∧
        Balanced tags 0 rest m₂ ∧ deepest = max (1 + m₁) m₂ := by
  generalize hdepth : 0 = depth at h
  induction h with
  | nil => exact .inl ⟨by rwa [List.infix_nil], rfl⟩
  | @text depth deepest c s hclosing hopening h ih =>
    rcases ih hdepth with ⟨habsent, hdeepest⟩ | ⟨before, body, inner, rest, m₁, m₂, hcut, hrest⟩
    · refine .inl ⟨?_, hdeepest⟩
      rw [List.infix_cons_iff]
      tauto
    · refine .inr ⟨c :: before, body, inner, rest, m₁, m₂, ?_, hrest⟩
      rw [Text.cut?, cutAfter?, after?_eq_none_iff.mpr hopening]
      dsimp only
      rw [cutAfter?_eq_map, hcut]
      rfl
  | @opened depth deepest s hclosing h ih =>
    subst hdepth
    obtain ⟨inner, rest, m₁, m₂, hclose, -, hinner, hrest, hm⟩ :=
      h.exists_closeFrom? ho hc 0 []
    refine .inr ⟨[], s, inner, rest, m₁, m₂, ?_, hclose, hinner, hrest, by omega⟩
    obtain ⟨c, lead, hlead⟩ := List.exists_cons_of_ne_nil ho
    have hafter := after?_append tags.opening s
    rw [hlead, List.cons_append] at hafter ⊢
    rw [Text.cut?, cutAfter?, hafter]
    rfl
  | closed _ _ => omega

/-- **Levels.**  Of a balanced text, the search for spans, in spans again, comes past no tag that
is not closed, and finds as many levels as tags are open at the deepest. -/
theorem complete_and_reaches_of_balanced (ho : tags.opening ≠ []) (hc : tags.closing ≠ [])
    {deepest : Nat} {s : List Char} (h : Balanced tags 0 s deepest) :
    Complete tags s ∧ ∀ n, Reaches tags n s ↔ n ≤ deepest := by
  induction hn : s.length using Nat.strongRecOn generalizing s deepest with
  | ind size ih =>
    subst hn
    rcases h.cut? ho hc with ⟨habsent, rfl⟩ |
      ⟨before, body, inner, rest, m₁, m₂, hcut, hclose, hinner, hrest, rfl⟩
    · have hspans := spans_of_absent habsent
      refine ⟨⟨by rwa [hspans], by simp [hspans, Spans.inners]⟩, fun n => ⟨fun hn => ?_, ?_⟩⟩
      · cases hn with
        | zero => exact Nat.le_refl 0
        | succ hinner =>
          rw [hspans] at hinner
          cases hinner
      · intro hn
        obtain rfl : n = 0 := by omega
        exact .zero s
    · have hlength := Text.length_cut? hcut
      have hopening := List.length_pos_iff.mpr ho
      have hbody := congrArg List.length (eq_append_of_closeFrom? hclose)
      simp only [List.reverse_nil, List.nil_append, List.length_append] at hbody
      obtain ⟨hcomplete, hreaches⟩ := ih inner.length (by omega) hinner rfl
      obtain ⟨⟨htail, hinners⟩, hreaches'⟩ := ih rest.length (by omega) hrest rfl
      have hspans := spans_of_cut? ho hc hcut hclose
      refine ⟨⟨by rwa [hspans], ?_⟩, fun n => ⟨fun hn => ?_, fun hn => ?_⟩⟩
      · rw [hspans, Spans.inners_cons, List.forall_mem_cons]
        exact ⟨hcomplete, hinners⟩
      · cases hn with
        | zero => exact Nat.zero_le _
        | @succ n s' inner' hmem hn =>
          rw [hspans, Spans.inners_cons, List.mem_cons] at hmem
          rcases hmem with rfl | hmem
          · have := (hreaches n).mp hn
            omega
          · have := (hreaches' (n + 1)).mp (.succ hmem hn)
            omega
      · cases n with
        | zero => exact .zero s
        | succ n =>
          by_cases hle : n ≤ m₁
          · refine .succ ?_ ((hreaches n).mpr hle)
            rw [hspans, Spans.inners_cons]
            exact List.mem_cons_self
          · have hrest : n + 1 ≤ m₂ := by omega
            cases (hreaches' (n + 1)).mpr hrest with
            | @succ _ _ inner' hmem h =>
              refine .succ ?_ h
              rw [hspans, Spans.inners_cons]
              exact List.mem_cons_of_mem _ hmem

theorem spanDepth_of_balanced (ho : tags.opening ≠ []) (hc : tags.closing ≠ []) {deepest : Nat}
    {s : List Char} (h : Balanced tags 0 s deepest) : spanDepth tags s = deepest := by
  have hne : ¬ (tags.opening.isEmpty || tags.closing.isEmpty) = true := by simp [ho, hc]
  rw [spanDepth, if_neg hne, depthFrom_of_balanced ho hc h (Nat.le_refl 0), Nat.zero_max]

/-- **Filling in**: a text with spans is taken apart at them, at least one; what stands in them is
what is handed on, in order and once each, whatever effects this has, and each span is replaced by
what comes back for it or kept as it is written.  What stands in a span comes past no opening tag
that is not closed, however often it is taken apart again, and its depth is the number of levels
that there are; trimming does not change the depth. -/
theorem fillSpans?_spans {f : List Char → Option (List Char)} {s out : List Char}
    (h : fillSpans? tags f s = some out) :
    ∃ (found : List (List Char × List Char)) (tail : List Char), found ≠ [] ∧
      spans tags s = ⟨found, tail⟩ ∧
      s = (found.map fun span => span.1 ++ Spans.written tags span.2).flatten ++ tail ∧
      out = (found.map fun span =>
        span.1 ++ (f span.2).getD (Spans.written tags span.2)).flatten ++ tail ∧
      (∀ {m : Type → Type} [Monad m] [LawfulMonad m] (g : List Char → m (Option (List Char))),
        (spans tags s).fillM tags g = do
          let values ← (found.map Prod.snd).mapM g
          pure ((List.zipWith (fun span value? =>
            span.1 ++ value?.getD (Spans.written tags span.2)) found values).flatten ++ tail)) ∧
      ∀ inner ∈ found.map Prod.snd, Complete tags inner ∧
        (∀ n, Reaches tags n inner ↔ n ≤ spanDepth tags inner) ∧
        ((∀ c ∈ tags.opening ++ tags.closing, isBlank c = false) →
          spanDepth tags (Text.trim inner) = spanDepth tags inner) := by
  rw [fillSpans?] at h
  split at h
  · next hspan =>
    rw [Spans.hasSpan, Bool.not_eq_true', List.isEmpty_eq_false_iff] at hspan
    refine ⟨(spans tags s).spans, (spans tags s).tail, hspan, rfl,
      (fill_spans_none tags s).symm, (Option.some.inj h).symm,
      fun g => Spans.fillM_eq_mapM (spans tags s), fun inner hinner => ?_⟩
    obtain ⟨ho, hc⟩ := ne_nil_of_mem_inners hinner
    obtain ⟨deepest, hbalanced⟩ := balanced_of_mem_inners hinner
    obtain ⟨hcomplete, hreaches⟩ := complete_and_reaches_of_balanced ho hc hbalanced
    rw [spanDepth_of_balanced ho hc hbalanced]
    exact ⟨hcomplete, hreaches, fun hblank =>
      spanDepth_of_balanced ho hc (hbalanced.trim ho hc hblank)⟩
  · cases h

/-- `x{$.a{$.b}}y{$.c}`, a text with a span in a span. -/
def nestedText : List Char := "x\x7b$.a\x7b$.b\x7d\x7dy\x7b$.c\x7d".toList

/-- The tags of the spans in `nestedText`. -/
def nestedTags : Tags := ⟨['\x7b', '$', '.'], ['\x7d']⟩

theorem spans_nestedText : spans nestedTags nestedText =
    ⟨[(['x'], "a\x7b$.b\x7d".toList), (['y'], ['c'])], []⟩ := by
  have hopening : nestedTags.opening ≠ [] := List.cons_ne_nil _ _
  have hclosing : nestedTags.closing ≠ [] := List.cons_ne_nil _ _
  have hrest : spans nestedTags "y\x7b$.c\x7d".toList = ⟨[(['y'], ['c'])], []⟩ := by
    have hcut : cut? nestedTags.opening "y\x7b$.c\x7d".toList = some (['y'], "c\x7d".toList) := rfl
    have hclose : closeFrom? nestedTags 1 0 [] "c\x7d".toList = some (['c'], []) := rfl
    rw [spans_of_cut? hopening hclosing hcut hclose, spans_nil]
  have hcut : cut? nestedTags.opening nestedText =
      some (['x'], "a\x7b$.b\x7d\x7dy\x7b$.c\x7d".toList) := rfl
  have hclose : closeFrom? nestedTags 1 0 [] "a\x7b$.b\x7d\x7dy\x7b$.c\x7d".toList =
      some ("a\x7b$.b\x7d".toList, "y\x7b$.c\x7d".toList) := rfl
  rw [spans_of_cut? hopening hclosing hcut hclose, hrest]

theorem fillSpans?_nestedText :
    fillSpans? nestedTags (fun inner => if inner = ['c'] then some ['C'] else none) nestedText =
        some "x\x7b$.a\x7b$.b\x7d\x7dyC".toList ∧
      ∃ found : List (List Char × List Char),
        found.map Prod.snd = ["a\x7b$.b\x7d".toList, ['c']] ∧
        ∀ inner ∈ found.map Prod.snd, Complete nestedTags inner ∧
          ∀ n, Reaches nestedTags n inner ↔ n ≤ spanDepth nestedTags inner := by
  have hfilled : fillSpans? nestedTags (fun inner => if inner = ['c'] then some ['C'] else none)
      nestedText = some "x\x7b$.a\x7b$.b\x7d\x7dyC".toList := by
    rw [fillSpans?, spans_nestedText]
    rfl
  obtain ⟨found, tail, -, hfound, -, -, -, hinner⟩ := fillSpans?_spans hfilled
  rw [spans_nestedText, Spans.mk.injEq] at hfound
  refine ⟨hfilled, found, by rw [← hfound.1]; rfl, fun inner hmem => ?_⟩
  exact ⟨(hinner inner hmem).1, (hinner inner hmem).2.1⟩

/-! ### Texts with spans that are not found -/

/-- After the text `before` stands an opening tag that a closing tag balances. -/
def ClosesAfter (tags : Tags) (s before : List Char) : Prop :=
  ∃ body, s = before ++ tags.opening ++ body ∧ (closeFrom? tags 1 0 [] body).isSome

theorem hasSpan_iff_of_cut? (ho : tags.opening ≠ []) (hc : tags.closing ≠ [])
    {s before body : List Char} (hcut : cut? tags.opening s = some (before, body)) :
    (spans tags s).hasSpan = true ↔ ClosesAfter tags s before := by
  have hs := eq_append_of_cut? hcut
  cases hclose : closeFrom? tags 1 0 [] body with
  | none =>
    rw [spans_of_not_closed hcut hclose]
    constructor
    · intro h
      cases h
    · rintro ⟨body', hs', hclose'⟩
      obtain rfl : body = body' := List.append_cancel_left (hs.symm.trans hs')
      rw [hclose] at hclose'
      cases hclose'
  | some closed =>
    obtain ⟨inner, rest⟩ := closed
    rw [spans_of_cut? ho hc hcut hclose]
    exact ⟨fun _ => ⟨body, hs, by rw [hclose]; rfl⟩, fun _ => rfl⟩

/-- **No spans**: that nothing is filled in says that no opening tag of the text is balanced by a
closing one, exactly when the first opening tag is balanced if any is. -/
theorem fillSpans?_eq_none_iff_iff (ho : tags.opening ≠ []) (hc : tags.closing ≠ [])
    (f : List Char → Option (List Char)) (s : List Char) :
    (fillSpans? tags f s = none ↔ ¬ ∃ before, ClosesAfter tags s before) ↔
      ∀ first body, cut? tags.opening s = some (first, body) →
        (∃ before, ClosesAfter tags s before) → ClosesAfter tags s first := by
  have hnone : fillSpans? tags f s = none ↔ ¬ (spans tags s).hasSpan = true := by
    rw [fillSpans?]
    split <;> simp_all
  rw [hnone, not_iff_not]
  cases hcut : cut? tags.opening s with
  | none =>
    have habsent := cut?_eq_none_iff.mp hcut
    have hnot : ¬ ∃ before, ClosesAfter tags s before := by
      rintro ⟨before, body, hs, -⟩
      exact habsent ⟨before, body, hs.symm⟩
    rw [spans_of_absent habsent]
    refine iff_of_true (iff_of_false ?_ hnot) (fun _ _ _ hany => absurd hany hnot)
    exact Bool.false_ne_true
  | some cut =>
    obtain ⟨first, body⟩ := cut
    have hfirst := hasSpan_iff_of_cut? ho hc hcut
    refine ⟨fun h first' body' heq hany => ?_, fun h => ?_⟩
    · obtain ⟨rfl, rfl⟩ : first = first' ∧ body = body' := by simpa using heq
      exact hfirst.mp (h.mpr hany)
    · exact ⟨fun hspan => ⟨first, hfirst.mp hspan⟩, fun hany => hfirst.mpr (h first body rfl hany)⟩

/-- `{$.a}{$.`, a text with a span before an opening tag that stays open. -/
def openEndedText : List Char := "\x7b$.a\x7d\x7b$.".toList

/-- Something is filled in in `openEndedText`, of which the first tag is closed. -/
theorem fillSpans?_openEndedText_ne_none :
    nestedTags.opening ≠ [] ∧ nestedTags.closing ≠ [] ∧
      fillSpans? nestedTags (fun _ => none) openEndedText ≠ none := by
  have hfirst : ClosesAfter nestedTags openEndedText [] := ⟨"a\x7d\x7b$.".toList, rfl, rfl⟩
  refine ⟨List.cons_ne_nil _ _, List.cons_ne_nil _ _, fun h => ?_⟩
  have hopening : nestedTags.opening ≠ [] := List.cons_ne_nil _ _
  have hclosing : nestedTags.closing ≠ [] := List.cons_ne_nil _ _
  refine (fillSpans?_eq_none_iff_iff hopening hclosing (fun _ => none) openEndedText).mpr ?_
    |>.mp h ⟨[], hfirst⟩
  intro first body hcut _
  have hcut' : cut? nestedTags.opening openEndedText = some ([], "a\x7d\x7b$.".toList) := rfl
  obtain ⟨rfl, -⟩ : [] = first ∧ "a\x7d\x7b$.".toList = body := by simpa [hcut'] using hcut
  exact hfirst

/-- **A span is missed**: in `{$.{$.a}` nothing is filled in, since the first tag stays open, but
the second is closed. -/
theorem fillSpans?_misses :
    ¬ (fillSpans? nestedTags (fun _ => some []) "\x7b$.\x7b$.a\x7d".toList = none ↔
      ¬ ∃ before, ClosesAfter nestedTags "\x7b$.\x7b$.a\x7d".toList before) := by
  have hnone : fillSpans? nestedTags (fun _ => some []) "\x7b$.\x7b$.a\x7d".toList = none := by
    have hcut : cut? nestedTags.opening "\x7b$.\x7b$.a\x7d".toList =
        some ([], "\x7b$.a\x7d".toList) := rfl
    have hclose : closeFrom? nestedTags 1 0 [] "\x7b$.a\x7d".toList = none := rfl
    rw [fillSpans?, spans_of_not_closed hcut hclose]
    rfl
  intro h
  exact h.mp hnone ⟨"\x7b$.".toList, "a\x7d".toList, rfl, rfl⟩

end Scrape.Rule
