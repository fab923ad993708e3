import Scrape.Proofs.Text.Find
import Scrape.Rule.Span

/-!
# Rule — Span, its laws

A text taken apart at its spans loses nothing: put together again with every span as it is written,
it is the text it was (`fill_spans_none`).  So a span is an infix of the text, and what stands in it
is shorter than the text by at least its two tags (`length_of_mem_inners`).
-/

namespace Scrape.Rule

open Scrape.Text (after?_eq_some_iff cut?_eq_none_iff eq_append_of_cut?)

variable {tags : Tags}

/-! ### Where a span ends -/

theorem eq_append_of_closeFrom? {depth skip : Nat} {inner s body rest : List Char}
    (h : closeFrom? tags depth skip inner s = some (body, rest)) :
    inner.reverse ++ s = body ++ tags.closing ++ rest := by
  fun_induction closeFrom? tags depth skip inner s with
  | case1 => simp at h
  | case2 depth inner c s skip ih => simpa using ih h
  | case3 depth inner c s r hr _ =>
    obtain ⟨rfl, rfl⟩ := by simpa using h
    rw [after?_eq_some_iff.mp hr, List.append_assoc]
  | case4 depth inner c s r hr _ ih => simpa using ih h
  | case5 depth inner c s hr _ ih => simpa using ih h
  | case6 depth inner c s hr _ ih => simpa using ih h

/-! ### Spans put together -/

namespace Spans

theorem fill_cons (f : List Char → Option (List Char)) (before inner : List Char)
    (found : List (List Char × List Char)) (tail : List Char) :
    (Spans.mk ((before, inner) :: found) tail).fill tags f =
      before ++ (f inner).getD (written tags inner) ++ (Spans.mk found tail).fill tags f := by
  simp [fill]

theorem fill_append (f : List Char → Option (List Char)) (found more : List (List Char × List Char))
    (tail : List Char) :
    (Spans.mk (found ++ more) tail).fill tags f =
      (Spans.mk found ((Spans.mk more tail).fill tags f)).fill tags f := by
  simp [fill]

end Spans

theorem fill_spansFrom_none (tags : Tags) (found : List (List Char × List Char)) (s : List Char) :
    (spansFrom tags found s).fill tags (fun _ => none) =
      (Spans.mk found.reverse s).fill tags (fun _ => none) := by
  fun_induction spansFrom tags found s with
  | case1 => rfl
  | case2 => rfl
  | case3 => rfl
  | case4 found s ho before body hc inner rest hb ih =>
    have hs : s = before ++ Spans.written tags inner ++ rest := by
      have hbody := eq_append_of_closeFrom? hb
      rw [List.reverse_nil, List.nil_append] at hbody
      rw [eq_append_of_cut? hc, hbody, Spans.written]
      simp
    rw [ih, List.reverse_cons, Spans.fill_append, Spans.fill_cons, hs]
    rfl

/-- **Nothing is lost**: a text put together from its spans, each as it is written. -/
theorem fill_spans_none (tags : Tags) (s : List Char) :
    (spans tags s).fill tags (fun _ => none) = s := by
  rw [spans]
  split
  · rfl
  · rw [fill_spansFrom_none]
    rfl

theorem spans_of_absent {s : List Char} (h : ¬ tags.opening <:+: s) : spans tags s = ⟨[], s⟩ := by
  have hcut := cut?_eq_none_iff.mpr h
  rw [spans]
  split
  · rfl
  · rw [spansFrom]
    split
    · rfl
    · split
      · rfl
      · simp_all

theorem spans_nil (tags : Tags) : spans tags [] = ⟨[], []⟩ := by
  rw [spans]
  split
  · rfl
  · next hne =>
    rw [spansFrom]
    split
    · rfl
    · next ho =>
      have hcut : Text.cut? tags.opening [] = none := by
        rw [cut?_eq_none_iff, List.infix_nil]
        exact ho
      split
      · rfl
      · simp_all

theorem ne_nil_of_hasSpan {s : List Char} (h : (spans tags s).hasSpan = true) : s ≠ [] := by
  rintro rfl
  rw [spans_nil] at h
  cases h

/-- What stands in a span is shorter than the text by at least the tags. -/
theorem length_of_mem_spans {s before inner : List Char}
    (h : (before, inner) ∈ (spans tags s).spans) :
    before.length + tags.opening.length + inner.length + tags.closing.length ≤ s.length := by
  obtain ⟨found, more, hf⟩ := List.append_of_mem h
  have hs := congrArg List.length (fill_spans_none tags s)
  have hspans : spans tags s = ⟨found ++ (before, inner) :: more, (spans tags s).tail⟩ := by
    rw [← hf]
  rw [hspans, Spans.fill_append, Spans.fill_cons] at hs
  simp only [Spans.fill, Spans.written, List.length_append, Option.getD_none] at hs
  omega

theorem length_of_mem_inners {s inner : List Char} (h : inner ∈ (spans tags s).inners) :
    tags.opening.length + inner.length + tags.closing.length ≤ s.length := by
  obtain ⟨⟨before, inner⟩, hmem, rfl⟩ := List.mem_map.mp h
  have := length_of_mem_spans hmem
  dsimp only
  omega

end Scrape.Rule
