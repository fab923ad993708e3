import Mathlib.Data.List.TakeDrop
import Mathlib.Data.List.TakeWhile
import Scrape.Script.Nesting

/-!
# Script — Bracket — Measure

What the measure of brackets makes of a text.  The brackets that are open are a list of marks, the
innermost first; what is measured from there on is never less than their number
(`length_le_reach`).  A text leads to what follows it (`Leads`) when the measure comes to no less
from the text than from what follows, whatever is open around both: so it is for a text without
marks, and for brackets of which what they hold leads to the one that closes them.
-/

namespace Scrape.Script.Nesting

/-! ### One character -/

section

variable {o : Open} {c : Char} {s : List Char}

theorem measure_escape_in_template (ho : o.inTemplate = true) (c : Char) (s : List Char) :
    measure .code o ('\\' :: c :: s) = measure .code o s := by
  rw [measure, if_pos ho]

example : measure .code ⟨['\x60'], 1, 1⟩ ['\\', '\x60', '$', '\x7b', 'a'] = 2 := by cbv

theorem measure_backquote_in_template (ho : o.inTemplate = true) (s : List Char) :
    measure .code o ('\x60' :: s) = measure .code o.pop s := by
  simp [measure, ho]

theorem measure_brace_in_template (ho : o.inTemplate = true) (s : List Char) :
    measure .code o ('$' :: '\x7b' :: s) = measure .code (o.push '\x7b') s := by
  simp [measure, ho]

theorem measure_in_template (ho : o.inTemplate = true)
    (hescape : ∀ d r, c = '\\' → s = d :: r → False) (hc : c = '\x60' → False)
    (hbrace : ∀ r, c = '$' → s = '\x7b' :: r → False) :
    measure .code o (c :: s) = measure .code o s := by
  rw [measure.eq_def]
  simp only [ho, if_true]

theorem measure_quote (ho : ¬ o.inTemplate = true)
    (hc : (decide (c = '"') || decide (c = '\'')) = true) (s : List Char) :
    measure .code o (c :: s) = measure (.quoted c) o s := by
  rw [measure.eq_def]
  simp only [if_neg ho, if_pos hc]

theorem measure_open (ho : ¬ o.inTemplate = true)
    (hquote : ¬ (decide (c = '"') || decide (c = '\'')) = true) (hc : opens c = true)
    (s : List Char) : measure .code o (c :: s) = measure .code (o.push c) s := by
  rw [measure.eq_def]
  simp only [if_neg ho, if_neg hquote, if_pos hc]

theorem measure_close (ho : ¬ o.inTemplate = true)
    (hquote : ¬ (decide (c = '"') || decide (c = '\'')) = true) (hopens : ¬ opens c = true)
    (hc : closes c = true) (s : List Char) :
    measure .code o (c :: s) = measure .code o.pop s := by
  rw [measure.eq_def]
  simp only [if_neg ho, if_neg hquote, if_neg hopens, if_pos hc]

theorem measure_lineComment (ho : ¬ o.inTemplate = true) (s : List Char) :
    measure .code o ('/' :: '/' :: s) = measure .lineComment o s := by
  simp [measure, ho, opens, closes]

theorem measure_comment (ho : ¬ o.inTemplate = true) (s : List Char) :
    measure .code o ('/' :: '*' :: s) = measure (.comment false) o s := by
  simp [measure, ho, opens, closes]

theorem measure_code (ho : ¬ o.inTemplate = true)
    (hquote : ¬ (decide (c = '"') || decide (c = '\'')) = true) (hopens : ¬ opens c = true)
    (hcloses : ¬ closes c = true) (hline : ∀ r, c = '/' → s = '/' :: r → False)
    (hcomment : ∀ r, c = '/' → s = '*' :: r → False) :
    measure .code o (c :: s) = measure .code o s := by
  rw [measure.eq_def]
  simp only [if_neg ho, if_neg hquote, if_neg hopens, if_neg hcloses]

theorem measure_quoted {q : Char} (h : ∀ d r, c = '\\' → s = d :: r → False) :
    measure (.quoted q) o (c :: s) = measure (if c = q then .code else .quoted q) o s := by
  rw [measure]
  exact h

end

/-! ### What is open -/

/-- The same is open but for brackets further out, and `more` brackets are more than there are, or
have been, otherwise. -/
structure Open.Within (more : Nat) (o o' : Open) : Prop where
  marks : ∃ outer, '\x60' ∉ outer ∧ o.marks = o'.marks ++ outer
  depth : o.depth ≤ o'.depth + more
  deepest : o.deepest ≤ o'.deepest + more

namespace Open.Within

variable {more : Nat} {o o' : Open}

theorem inTemplate (h : o.Within more o') : o.inTemplate = o'.inTemplate := by
  obtain ⟨outer, houter, hmarks⟩ := h.marks
  rw [Open.inTemplate, Open.inTemplate, hmarks]
  cases o'.marks with
  | cons c marks => rfl
  | nil =>
    have hhead : outer.head? ≠ some '\x60' := fun h => houter (List.mem_of_mem_head? h)
    simp [hhead]

theorem push (h : o.Within more o') (c : Char) : (o.push c).Within more (o'.push c) := by
  obtain ⟨outer, houter, hmarks⟩ := h.marks
  have hdepth := h.depth
  have hdeepest := h.deepest
  refine ⟨⟨outer, houter, by rw [Open.push, hmarks]; rfl⟩, ?_, ?_⟩
  · simp only [Open.push]
    omega
  · simp only [Open.push]
    omega

theorem pop (h : o.Within more o') : o.pop.Within more o'.pop := by
  obtain ⟨outer, houter, hmarks⟩ := h.marks
  have hdepth := h.depth
  refine ⟨?_, by simp only [Open.pop]; omega, h.deepest⟩
  simp only [Open.pop, hmarks]
  cases o'.marks with
  | nil => exact ⟨outer.tail, fun hmem => houter (List.mem_of_mem_tail hmem), rfl⟩
  | cons c marks => exact ⟨outer, houter, rfl⟩

end Open.Within

/-- **With `more` brackets around it** there are `more` of them to measure at most. -/
theorem measure_le_of_within {more : Nat} {place : Place} {o o' : Open} {s : List Char}
    (h : o.Within more o') : measure place o s ≤ measure place o' s + more := by
  fun_induction measure place o s generalizing o' with
  | case1 => simpa [measure] using h.deepest
  | case2 o c r ih | case3 star o c r ih | case4 q o c r ih =>
    rw [measure]
    exact ih h
  | case5 q o c r hc ih =>
    rw [measure_quoted hc]
    exact ih h
  | case6 o ho c r ih =>
    rw [measure_escape_in_template (h.inTemplate ▸ ho)]
    exact ih h
  | case7 o ho r ih =>
    rw [measure_backquote_in_template (h.inTemplate ▸ ho)]
    exact ih h.pop
  | case8 o ho r ih =>
    rw [measure_brace_in_template (h.inTemplate ▸ ho)]
    exact ih (h.push '\x7b')
  | case9 o c ho r hescape hc hbrace ih =>
    rw [measure_in_template (h.inTemplate ▸ ho) hescape hc hbrace]
    exact ih h
  | case10 o c r ho hquote ih =>
    rw [measure_quote (h.inTemplate ▸ ho) hquote]
    exact ih h
  | case11 o c r ho hquote hopens ih =>
    rw [measure_open (h.inTemplate ▸ ho) hquote hopens]
    exact ih (h.push c)
  | case12 o c r ho hquote hopens hcloses ih =>
    rw [measure_close (h.inTemplate ▸ ho) hquote hopens hcloses]
    exact ih h.pop
  | case13 o ho r _ _ _ ih =>
    rw [measure_lineComment (h.inTemplate ▸ ho)]
    exact ih h
  | case14 o ho r _ _ _ ih =>
    rw [measure_comment (h.inTemplate ▸ ho)]
    exact ih h
  | case15 o c ho hquote hopens hcloses r hline hcomment ih =>
    rw [measure_code (h.inTemplate ▸ ho) hquote hopens hcloses hline hcomment]
    exact ih h

theorem deepest_le_measure (place : Place) (o : Open) (s : List Char) :
    o.deepest ≤ measure place o s := by
  fun_induction measure place o s with
  | case1 => exact Nat.le_refl _
  | case8 o _ _ ih | case11 o _ _ _ _ _ ih => exact Nat.le_trans (Nat.le_max_left _ _) ih
  | _ => assumption

/-! ### What follows the text -/

/-- Where nothing opens, there is no more to measure. -/
theorem measure_of_not_opens {place : Place} {o : Open} {s : List Char}
    (h : ∀ c ∈ s, ¬ opens c = true) : measure place o s = o.deepest := by
  fun_induction measure place o s with
  | case1 => rfl
  | case4 _ _ _ _ ih | case6 _ _ _ _ ih =>
    exact ih fun c hc => h c (List.mem_cons_of_mem _ (List.mem_cons_of_mem _ hc))
  | case7 _ _ _ ih => exact absurd rfl (h '\x60' List.mem_cons_self)
  | case8 => exact absurd rfl (h '\x7b' (by simp))
  | case11 _ _ _ _ _ hopens => exact absurd hopens (h _ List.mem_cons_self)
  | case13 _ _ _ _ _ _ ih | case14 _ _ _ _ _ _ ih =>
    exact ih fun c hc => h c (List.mem_cons_of_mem _ (List.mem_cons_of_mem _ hc))
  | _ =>
    rename_i ih
    exact ih fun c hc => h c (List.mem_cons_of_mem _ hc)

/-- A text that opens nothing adds nothing to a character and the text behind it, if it adds nothing
where the two are not read together: where the character opens something, or is not the last. -/
theorem measure_cons_append_le {place place' : Place} {o : Open} {c : Char} {s t : List Char}
    (ht : ∀ c ∈ t, ¬ opens c = true)
    (hopens : opens c = true → measure place o (c :: (s ++ t)) ≤ measure place' o s)
    (hcons : ∀ d r, s = d :: r → measure place o (c :: (s ++ t)) ≤ measure place' o s) :
    measure place o (c :: (s ++ t)) ≤ measure place' o s := by
  cases s with
  | nil =>
    by_cases hc : opens c = true
    · exact hopens hc
    · rw [List.nil_append, measure_of_not_opens (List.forall_mem_cons.mpr ⟨hc, ht⟩), measure]
  | cons d r => exact hcons d r rfl

/-- A text that opens nothing adds nothing to the text before it. -/
theorem measure_append_le {place : Place} {o : Open} {s t : List Char}
    (ht : ∀ c ∈ t, ¬ opens c = true) : measure place o (s ++ t) ≤ measure place o s := by
  fun_induction measure place o s with
  | case1 => exact Nat.le_of_eq (measure_of_not_opens ht)
  | case2 o c r ih | case3 star o c r ih =>
    rw [List.cons_append, measure]
    exact ih
  | case4 q o c r ih =>
    rw [List.cons_append, List.cons_append, measure]
    exact ih
  -- a character that is read alone may be one that is read together with what follows the text
  | case5 q o c r hc ih =>
    refine measure_cons_append_le ht (fun h => ?_) fun d r' hr => ?_
    · rw [measure_quoted fun _ _ he _ => absurd (he ▸ h) (by decide)]
      exact ih
    · subst hr
      rw [measure_quoted fun _ _ he _ => hc d r' he rfl]
      exact ih
  | case6 o ho c r ih =>
    rw [List.cons_append, List.cons_append, measure_escape_in_template ho]
    exact ih
  | case7 o ho r ih =>
    rw [List.cons_append, measure_backquote_in_template ho]
    exact ih
  | case8 o ho r ih =>
    rw [List.cons_append, List.cons_append, measure_brace_in_template ho]
    exact ih
  | case9 o c ho r hescape hc hbrace ih =>
    refine measure_cons_append_le ht (fun h => ?_) fun d r' hr => ?_
    · rw [measure_in_template ho (fun _ _ he _ => absurd (he ▸ h) (by decide)) hc
        fun _ he _ => absurd (he ▸ h) (by decide)]
      exact ih
    · subst hr
      rw [measure_in_template ho (fun _ _ he _ => hescape d r' he rfl) hc fun _ he heq => ?_]
      · exact ih
      · obtain ⟨rfl, -⟩ := List.cons.inj heq
        exact hbrace r' he rfl
  | case10 o c r ho hquote ih =>
    rw [List.cons_append, measure_quote ho hquote]
    exact ih
  | case11 o c r ho hquote hopens ih =>
    rw [List.cons_append, measure_open ho hquote hopens]
    exact ih
  | case12 o c r ho hquote hopens hcloses ih =>
    rw [List.cons_append, measure_close ho hquote hopens hcloses]
    exact ih
  | case13 o ho r _ _ _ ih =>
    rw [List.cons_append, List.cons_append, measure_lineComment ho]
    exact ih
  | case14 o ho r _ _ _ ih =>
    rw [List.cons_append, List.cons_append, measure_comment ho]
    exact ih
  | case15 o c ho hquote hopens hcloses r hline hcomment ih =>
    refine measure_cons_append_le ht (fun h => absurd h hopens) fun d r' hr => ?_
    subst hr
    rw [measure_code ho hquote hopens hcloses]
    · exact ih
    · rintro _ he heq
      obtain ⟨rfl, -⟩ := List.cons.inj heq
      exact hline r' he rfl
    · rintro _ he heq
      obtain ⟨rfl, -⟩ := List.cons.inj heq
      exact hcomment r' he rfl

/-! ### From marks on -/

/-- The brackets and templates that are open, and no more of them than there are now. -/
def Open.of (marks : List Char) : Open := ⟨marks, marks.length, marks.length⟩

/-- What is measured where the marks are open. -/
def reach (marks s : List Char) : Nat := measure .code (.of marks) s

/-- The marks under which a text is code, and not part of a template. -/
def Code (marks : List Char) : Prop := marks.head? ≠ some '\x60'

theorem Code.nil : Code [] := by simp [Code]

theorem Code.cons {c : Char} (h : c ≠ '\x60') (marks : List Char) : Code (c :: marks) := by
  simpa [Code] using h

theorem Code.not_inTemplate {marks : List Char} (h : Code marks) :
    ¬ (Open.of marks).inTemplate = true := by
  rw [Open.inTemplate, decide_eq_true_eq]
  exact h

theorem length_le_reach (marks s : List Char) : marks.length ≤ reach marks s :=
  deepest_le_measure .code (.of marks) s

theorem push_of (marks : List Char) (c : Char) : (Open.of marks).push c = .of (c :: marks) := by
  simp [Open.push, Open.of]

/-- With one bracket less there is no more to measure. -/
theorem reach_le_measure_pop (marks : List Char) (c : Char) (s : List Char) :
    reach marks s ≤ measure .code (Open.of (c :: marks)).pop s :=
  have h : (Open.of marks).Within 0 (Open.of (c :: marks)).pop :=
    ⟨⟨[], List.not_mem_nil, (List.append_nil _).symm⟩, Nat.le_refl _, Nat.le_succ _⟩
  measure_le_of_within h

/-- The characters that mean something to the measure. -/
def marked : List Char :=
  ['"', '\'', '\x60', '(', ')', '[', ']', '\x7b', '\x7d', '/']

section

variable {marks s : List Char} {c : Char}

theorem reach_of_not_marked (hm : Code marks) (hc : c ∉ marked) :
    reach marks (c :: s) = reach marks s := by
  simp only [marked, List.mem_cons, List.not_mem_nil, or_false, not_or] at hc
  exact measure_code hm.not_inTemplate (by simp [hc]) (by simp [opens, hc]) (by simp [closes, hc])
    (fun _ h _ => by simp [hc] at h) (fun _ h _ => by simp [hc] at h)

theorem reach_append_of_not_marked (hm : Code marks) {w : List Char} (hw : ∀ c ∈ w, c ∉ marked) :
    reach marks (w ++ s) = reach marks s := by
  induction w with
  | nil => rfl
  | cons c w ih =>
    rw [List.forall_mem_cons] at hw
    rw [List.cons_append, reach_of_not_marked hm hw.1, ih hw.2]

theorem reach_open (hm : Code marks) (hc : opens c = true) :
    reach marks (c :: s) = reach (c :: marks) s := by
  have hquote : ¬ (decide (c = '"') || decide (c = '\'')) = true := by
    intro h
    simp only [Bool.or_eq_true, decide_eq_true_eq] at h
    rcases h with rfl | rfl
    all_goals exact absurd hc (by decide)
  rw [reach, measure_open hm.not_inTemplate hquote hc, push_of]
  rfl

theorem reach_le_close (hm : Code (c :: marks)) {d : Char} (hd : closes d = true) :
    reach marks s ≤ reach (c :: marks) (d :: s) := by
  have hmarks : d = ')' ∨ d = ']' ∨ d = '\x7d' := by simpa [closes, or_assoc] using hd
  have hquote : ¬ (decide (d = '"') || decide (d = '\'')) = true := by
    rcases hmarks with rfl | rfl | rfl
    all_goals decide
  have hopens : ¬ opens d = true := by
    rcases hmarks with rfl | rfl | rfl
    all_goals decide
  rw [reach.eq_1 (c :: marks), measure_close hm.not_inTemplate hquote hopens hd]
  exact reach_le_measure_pop marks c s

theorem reach_quote (hm : Code marks) (hc : c = '"' ∨ c = '\'') :
    reach marks (c :: s) = measure (.quoted c) (.of marks) s :=
  measure_quote hm.not_inTemplate (by simpa using hc) s

theorem reach_slash (hm : Code marks) (hs : s.head? ≠ some '/' ∧ s.head? ≠ some '*') :
    reach marks ('/' :: s) = reach marks s := by
  refine measure_code hm.not_inTemplate (by decide) (by decide) (by decide) ?_ ?_
  · rintro r - rfl
    exact hs.1 rfl
  · rintro r - rfl
    exact hs.2 rfl

theorem reach_lineComment (hm : Code marks) (s : List Char) :
    reach marks ('/' :: '/' :: s) = measure .lineComment (.of marks) s :=
  measure_lineComment hm.not_inTemplate s

theorem reach_comment (hm : Code marks) (s : List Char) :
    reach marks ('/' :: '*' :: s) = measure (.comment false) (.of marks) s :=
  measure_comment hm.not_inTemplate s

end

/-! ### Texts that lead to others -/

/-- What follows is the end of the text, and the measure comes to no less from the text than from
there, whatever is open. -/
structure Leads (s t : List Char) : Prop where
  suffix : t <:+ s
  reach_le : ∀ marks, Code marks → reach marks t ≤ reach marks s

namespace Leads

variable {s t u : List Char} {c d : Char}

theorem refl (s : List Char) : Leads s s := ⟨List.suffix_refl s, fun _ _ => Nat.le_refl _⟩

theorem trans (h : Leads s t) (h' : Leads t u) : Leads s u :=
  ⟨h'.suffix.trans h.suffix, fun marks hm =>
    Nat.le_trans (h'.reach_le marks hm) (h.reach_le marks hm)⟩

theorem cons (hc : c ∉ marked) (h : Leads s t) : Leads (c :: s) t :=
  ⟨h.suffix.trans (List.suffix_cons c s), fun marks hm => by
    rw [reach_of_not_marked hm hc]
    exact h.reach_le marks hm⟩

theorem append {w : List Char} (hw : ∀ c ∈ w, c ∉ marked) (s : List Char) : Leads (w ++ s) s :=
  ⟨List.suffix_append w s, fun _ hm => Nat.le_of_eq (reach_append_of_not_marked hm hw).symm⟩

/-- What stands in brackets is passed with them. -/
theorem enclosed (hc : opens c = true) (hcode : c ≠ '\x60') (hd : closes d = true)
    (h : Leads s (d :: t)) : Leads (c :: s) t := by
  refine ⟨((List.suffix_cons d t).trans h.suffix).trans (List.suffix_cons c s), fun marks hm => ?_⟩
  rw [reach_open hm hc]
  exact Nat.le_trans (reach_le_close (.cons hcode marks) hd) (h.reach_le _ (.cons hcode marks))

theorem span {p : Char → Bool} (hp : ∀ c, p c = true → c ∉ marked) (s : List Char) :
    Leads s (s.span p).2 := by
  rw [List.span_eq_takeWhile_dropWhile]
  have hw : ∀ c ∈ s.takeWhile p, c ∉ marked := fun c hc => hp c (List.mem_takeWhile_imp hc)
  have h := append hw (s.dropWhile p)
  rwa [List.takeWhile_append_dropWhile] at h

end Leads

end Scrape.Script.Nesting
