import Scrape.Text.Blank
import Scrape.Text.Find

/-!
# Rule — Segment

The parts of a rule that carries scripts.  A script stands between `<js>` and `</js>`, or after
`@js:` up to the end of the rule; the letters of the marks may be small or capital.
-/

namespace Scrape.Rule

open Scrape.Text (asciiLower contains equalIgnoringCase trim)

/-- A part of a rule. -/
inductive Segment where
  /-- Rule text, trimmed and not empty. -/
  | rule (text : List Char)
  /-- The source of a script. -/
  | script (source : List Char)
  deriving DecidableEq

/-- The mark that opens a script. -/
def scriptOpen : List Char := "<js>".toList

/-- The mark that closes a script. -/
def scriptClose : List Char := "</js>".toList

/-- The mark of a script that takes up the rest of the rule. -/
def scriptTail : List Char := "@js:".toList

/-- Whether the rule carries the marks of a script. -/
def hasScript (rule : List Char) : Bool :=
  let lower := asciiLower rule
  contains scriptTail lower || (contains scriptOpen lower && contains scriptClose lower)

/-- The text before and after the first occurrence of a mark in small or capital letters, after
`seen`, which is held in reverse. -/
def cutMarkAfter? (mark seen : List Char) : List Char → Option (List Char × List Char)
  | []     => none
  | c :: s =>
    if equalIgnoringCase mark ((c :: s).take mark.length) then
      some (seen.reverse, (c :: s).drop mark.length)
    else cutMarkAfter? mark (c :: seen) s

/-- The text before and after the first occurrence of a mark in small or capital letters. -/
def cutMark? (mark s : List Char) : Option (List Char × List Char) := cutMarkAfter? mark [] s

theorem length_cutMarkAfter? {mark seen s before rest : List Char}
    (h : cutMarkAfter? mark seen s = some (before, rest)) :
    rest.length + mark.length ≤ s.length := by
  fun_induction cutMarkAfter? mark seen s with
  | case1 => simp at h
  | case2 seen c s hm =>
    obtain ⟨rfl, rfl⟩ := by simpa using h
    have := congrArg List.length (eq_of_beq hm)
    simp only [asciiLower, List.length_map, List.length_take, List.length_drop] at this ⊢
    omega
  | case3 seen c s _ ih =>
    have := ih h
    simp only [List.length_cons]
    omega

theorem length_cutMark? {mark s before rest : List Char}
    (h : cutMark? mark s = some (before, rest)) : rest.length + mark.length ≤ s.length :=
  length_cutMarkAfter? h

/-- The segment of rule text, if it is not blank. -/
def textSegment (text : List Char) : List Segment :=
  let t := trim text
  if t.isEmpty then [] else [.rule t]

/-- The segments of a text without scripts between marks: up to the mark of a script that takes up
the rest, and the script; or all of it. -/
def lastSegments (s : List Char) : List Segment :=
  match cutMark? scriptTail s with
  | some (before, source) => textSegment before ++ [.script source]
  | none                  => textSegment s

/-- The segments of the rest of a rule, after the segments `found`, latest first.  A mark that opens
a script means nothing after the mark of a script that takes up the rest. -/
def segmentsFrom (found : List Segment) (s : List Char) : List Segment :=
  match _ho : cutMark? scriptOpen s with
  | none                => found.reverse ++ lastSegments s
  | some (before, body) =>
    if (cutMark? scriptTail before).isSome then found.reverse ++ lastSegments s
    else
      match _hc : cutMark? scriptClose body with
      | none                => found.reverse ++ textSegment s
      | some (source, rest) => segmentsFrom (.script source :: (textSegment before ++ found)) rest
termination_by s.length
decreasing_by
  have h₁ := length_cutMark? _ho
  have h₂ := length_cutMark? _hc
  have : scriptOpen.length = 4 := rfl
  omega

/-- The rule texts and scripts of a rule, in order; blank text between them is left out. -/
def segments (rule : List Char) : List Segment := segmentsFrom [] rule

end Scrape.Rule
