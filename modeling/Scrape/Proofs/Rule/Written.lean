import Mathlib.Data.List.Chain
import Scrape.Proofs.Rule.Reading

/-!
# Rule — Written

Segments written down as a rule: a rule text as it is, a script between its marks, and a last
script after its own mark.

Main statement (`segments_written`): what segments are written down as is taken apart into them, if
no two rule texts are next to each other, no mark that begins a script is in a rule text, and no
closing mark is in a script but the last.
-/

namespace Scrape.Rule

open Scrape.Text (asciiLower trim)

/-- Whether a segment is a rule text. -/
def Segment.isRule : Segment → Bool
  | .rule _   => true
  | .script _ => false

/-- A segment, written down. -/
def Segment.written : Segment → List Char
  | .rule text     => text
  | .script source => scriptOpen ++ source ++ scriptClose

/-- Segments, written down one after the other, with a script that takes up the rest, if there is
one. -/
def written (l : List Segment) (last? : Option (List Char)) : List Char :=
  (l.map Segment.written).flatten ++ last?.elim [] (scriptTail ++ ·)

/-- A rule text is trimmed and not empty, and no script begins in it; a script has no closing
mark. -/
def Segment.Plain : Segment → Prop
  | .rule text     => trim text = text ∧ text ≠ [] ∧ Free text
  | .script source => ¬ HasMark scriptClose source

instance : DecidablePred Segment.Plain
  | .rule text     => inferInstanceAs (Decidable (trim text = text ∧ text ≠ [] ∧ Free text))
  | .script source => inferInstanceAs (Decidable (¬ HasMark scriptClose source))

/-- Segments that can be told from one another when they are written down: no two rule texts are
next to each other, and each segment is plain. -/
structure Writable (l : List Segment) : Prop where
  apart : l.IsChain fun a b => ¬ (a.isRule ∧ b.isRule)
  plain : ∀ a ∈ l, a.Plain

namespace Writable

variable {a : Segment} {l : List Segment}

theorem head (h : Writable (a :: l)) : a.Plain := h.plain a List.mem_cons_self

theorem tail (h : Writable (a :: l)) : Writable l :=
  ⟨h.apart.tail, fun b hb => h.plain b (List.mem_cons_of_mem _ hb)⟩

/-- A script follows a rule text, if anything does. -/
theorem eq_script {text : List Char} (h : Writable (.rule text :: a :: l)) :
    ∃ source, a = .script source := by
  cases a with
  | script source => exact ⟨source, rfl⟩
  | rule text' => exact absurd ⟨rfl, rfl⟩ (List.isChain_cons_cons.mp h.apart).1

end Writable

theorem written_cons (a : Segment) (l : List Segment) (last? : Option (List Char)) :
    written (a :: l) last? = a.written ++ written l last? := by
  simp [written]

theorem textSegment_of_plain {text : List Char} (h : (Segment.rule text).Plain) :
    textSegment text = [.rule text] := by
  obtain ⟨htrim, hne, -⟩ := h
  simp [textSegment, htrim, hne]

theorem free_nil : Free [] := ⟨not_hasMark_nil (by decide), not_hasMark_nil (by decide)⟩

/-- A text before a script that is closed, and what is written down after it. -/
theorem Reading.of_script {before source rest : List Char} {l : List Segment}
    (hbefore : Free before) (hsource : (Segment.script source).Plain) (hrest : Reading rest l) :
    Reading (before ++ ((Segment.script source).written ++ rest))
      (textSegment before ++ .script source :: l) := by
  have hopening : asciiLower scriptOpen = scriptOpen := by decide
  have hclosing : asciiLower scriptClose = scriptClose := by decide
  simpa [Segment.written] using Reading.span hbefore hopening hsource hclosing hrest

/-- A text at the end, or before a last script. -/
theorem Reading.of_last {before : List Char} (hbefore : Free before) (last? : Option (List Char)) :
    Reading (before ++ written [] last?) (textSegment before ++ last?.toList.map .script) := by
  cases last? with
  | none => simpa [written] using Reading.plain hbefore
  | some source =>
    have hmark : asciiLower scriptTail = scriptTail := by decide
    simpa [written] using Reading.tail source hbefore hmark

/-- What is written down is read as it was. -/
theorem reading_written (last? : Option (List Char)) :
    ∀ {l : List Segment}, Writable l →
      Reading (written l last?) (l ++ last?.toList.map Segment.script)
  | [], _ => Reading.of_last free_nil last?
  | [.rule text], h => by
    have hread := Reading.of_last h.head.2.2 last?
    rw [textSegment_of_plain h.head] at hread
    rwa [written_cons]
  | .script source :: l, h => by
    rw [written_cons]
    exact Reading.of_script free_nil h.head (reading_written last? h.tail)
  | .rule text :: a :: l, h => by
    -- a script follows the rule text, and the rest is read after both
    obtain ⟨source, rfl⟩ := h.eq_script
    have hread := Reading.of_script h.head.2.2 h.tail.head (reading_written last? h.tail.tail)
    rw [textSegment_of_plain h.head] at hread
    rwa [written_cons, written_cons]

/-- **Segments that are written down** are what the rule is taken apart into. -/
theorem segments_written {l : List Segment} (h : Writable l) (last? : Option (List Char)) :
    segments (written l last?) = l ++ last?.toList.map Segment.script :=
  segments_eq_iff.mpr (reading_written last? h)

/-- A script that holds the marks of other scripts, after a rule text, and a last script that holds
all marks. -/
theorem segments_written_nested :
    segments "class.a@text<js>result + '@js:<js>'</js>@js:x</js><js>y@js:".toList =
      [.rule "class.a@text".toList, .script "result + '@js:<js>'".toList,
        .script "x</js><js>y@js:".toList] := by
  have h : Writable [.rule "class.a@text".toList, .script "result + '@js:<js>'".toList] :=
    ⟨by decide, by decide⟩
  exact segments_written h (some "x</js><js>y@js:".toList)

end Scrape.Rule
