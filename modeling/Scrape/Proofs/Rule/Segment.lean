import Scrape.Proofs.Text.Blank
import Scrape.Rule.Segment

/-!
# Rule — Segment, its laws

The text of a segment is part of the rule, so that it is no longer than it
(`length_of_mem_segments`).
-/

namespace Scrape.Rule

open Scrape.Text (length_trim_le trim)

theorem length_before_of_cutMarkAfter? {mark seen s before rest : List Char}
    (h : cutMarkAfter? mark seen s = some (before, rest)) :
    before.length ≤ seen.length + s.length := by
  fun_induction cutMarkAfter? mark seen s with
  | case1 => simp at h
  | case2 seen c s hm =>
    obtain ⟨rfl, _⟩ := by simpa using h
    simp
  | case3 seen c s _ ih =>
    have := ih h
    simp only [List.length_cons] at this ⊢
    omega

theorem length_before_of_cutMark? {mark s before rest : List Char}
    (h : cutMark? mark s = some (before, rest)) : before.length ≤ s.length := by
  simpa using length_before_of_cutMarkAfter? h

theorem length_of_mem_textSegment {s text : List Char} (h : .rule text ∈ textSegment s) :
    text.length ≤ s.length := by
  have hle := length_trim_le s
  unfold textSegment at h
  grind

theorem length_of_mem_lastSegments {s text : List Char} (h : .rule text ∈ lastSegments s) :
    text.length ≤ s.length := by
  unfold lastSegments at h
  split at h
  · next before source hcut =>
    have hbefore := length_before_of_cutMark? hcut
    rcases List.mem_append.mp h with h | h
    · exact Nat.le_trans (length_of_mem_textSegment h) hbefore
    · simp at h
  · exact length_of_mem_textSegment h

theorem length_of_mem_segmentsFrom {found : List Segment} {s text : List Char} {bound : Nat}
    (hs : s.length ≤ bound) (hfound : .rule text ∈ found → text.length ≤ bound)
    (h : .rule text ∈ segmentsFrom found s) : text.length ≤ bound := by
  fun_induction segmentsFrom found s with
  | case1 found s ho =>
    rcases List.mem_append.mp h with h | h
    · exact hfound (List.mem_reverse.mp h)
    · exact Nat.le_trans (length_of_mem_lastSegments h) hs
  | case2 found s before body ho ht =>
    rcases List.mem_append.mp h with h | h
    · exact hfound (List.mem_reverse.mp h)
    · exact Nat.le_trans (length_of_mem_lastSegments h) hs
  | case3 found s before body ho ht hc =>
    rcases List.mem_append.mp h with h | h
    · exact hfound (List.mem_reverse.mp h)
    · exact Nat.le_trans (length_of_mem_textSegment h) hs
  | case4 found s before body ho ht source rest hc ih =>
    have hbefore := length_before_of_cutMark? ho
    have hbody := length_cutMark? ho
    have hrest := length_cutMark? hc
    refine ih (by omega) (fun hmem => ?_) h
    rcases List.mem_cons.mp hmem with hmem | hmem
    · cases hmem
    · rcases List.mem_append.mp hmem with hmem | hmem
      · exact Nat.le_trans (length_of_mem_textSegment hmem) (Nat.le_trans hbefore hs)
      · exact hfound hmem

/-- **The text of a segment** is no longer than the rule. -/
theorem length_of_mem_segments {rule text : List Char} (h : .rule text ∈ segments rule) :
    text.length ≤ rule.length :=
  length_of_mem_segmentsFrom (Nat.le_refl _) (fun hmem => by cases hmem) h

end Scrape.Rule
