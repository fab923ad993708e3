import Scrape.Proofs.Rule.Mark

/-!
# Rule — Reading

How a rule that carries scripts is read: up to the first mark that begins a script, and on after the
script, if it has an end.  The reading is given as a grammar (`Reading`), and what the rule is taken
apart into is its one reading.

Main statement (`segments_eq_iff`): the segments of a rule are those that it is read as.
-/

namespace Scrape.Rule

open Scrape.Text (asciiLower trim)

/-- No script begins in the text. -/
structure Free (s : List Char) : Prop where
  opens : ¬ HasMark scriptOpen s
  tails : ¬ HasMark scriptTail s

instance : DecidablePred Free := fun s =>
  decidable_of_iff (¬ HasMark scriptOpen s ∧ ¬ HasMark scriptTail s)
    ⟨fun ⟨hopen, htail⟩ => ⟨hopen, htail⟩, fun h => ⟨h.opens, h.tails⟩⟩

/-- The segments that a rule is read as. -/
inductive Reading : List Char → List Segment → Prop where
  /-- A text in which no script begins. -/
  | plain {s : List Char} (h : Free s) : Reading s (textSegment s)
  /-- A script that takes up the rest. -/
  | tail {before mark : List Char} (source : List Char) (hbefore : Free before)
      (hmark : asciiLower mark = scriptTail) :
      Reading (before ++ mark ++ source) (textSegment before ++ [.script source])
  /-- A script that is opened and not closed is none. -/
  | unclosed {before mark body : List Char} (hbefore : Free before)
      (hmark : asciiLower mark = scriptOpen) (hbody : ¬ HasMark scriptClose body) :
      Reading (before ++ mark ++ body) (textSegment (before ++ mark ++ body))
  /-- A script between marks, and the rest. -/
  | span {before opening source closing rest : List Char} {segments : List Segment}
      (hbefore : Free before) (hopening : asciiLower opening = scriptOpen)
      (hsource : ¬ HasMark scriptClose source) (hclosing : asciiLower closing = scriptClose)
      (hrest : Reading rest segments) :
      Reading (before ++ opening ++ (source ++ closing ++ rest))
        (textSegment before ++ .script source :: segments)

/-! ### Marks next to an opening mark -/

section

variable {mark before opening body : List Char}

/-- A mark whose first character alone may be `<`, and that does not begin within an opening mark,
stands before the opening mark or after it. -/
theorem hasMark_append_opening_iff (hmark : '<' ∉ (asciiLower mark).tail)
    (hwithin : ∀ s, asciiLower mark <:+: '<' :: 'j' :: 's' :: '>' :: s → asciiLower mark <:+: s)
    (hopening : asciiLower opening = scriptOpen) :
    HasMark mark (before ++ opening ++ body) ↔ HasMark mark before ∨ HasMark mark body := by
  constructor
  · intro h
    have hlower : asciiLower mark <:+: asciiLower before ++ '<' :: 'j' :: 's' :: '>' ::
        asciiLower body := by
      simpa [HasMark, hopening, scriptOpen] using h
    exact (infix_or_infix_of_infix_append_cons hmark hlower).imp_right (hwithin _)
  · rintro (h | h)
    · exact h.mono ⟨[], opening ++ body, by simp⟩
    · exact h.mono ⟨before ++ opening, [], by simp⟩

theorem hasMark_scriptTail_append_iff (hopening : asciiLower opening = scriptOpen) :
    HasMark scriptTail (before ++ opening ++ body) ↔
      HasMark scriptTail before ∨ HasMark scriptTail body :=
  hasMark_append_opening_iff (by decide) (by simp [List.infix_cons_iff, asciiLower, scriptTail])
    hopening

theorem hasMark_scriptClose_append_iff (hopening : asciiLower opening = scriptOpen) :
    HasMark scriptClose (before ++ opening ++ body) ↔
      HasMark scriptClose before ∨ HasMark scriptClose body :=
  hasMark_append_opening_iff (by decide) (by simp [List.infix_cons_iff, asciiLower, scriptClose])
    hopening

end

/-! ### One exit after the other -/

section

variable {s before body source rest : List Char} {found : List Segment}

theorem segmentsFrom_eq (found : List Segment) (s : List Char) : segmentsFrom found s =
    match cutMark? scriptOpen s with
    | none                => found.reverse ++ lastSegments s
    | some (before, body) =>
      if (cutMark? scriptTail before).isSome then found.reverse ++ lastSegments s
      else
        match cutMark? scriptClose body with
        | none                => found.reverse ++ textSegment s
        | some (source, rest) =>
          segmentsFrom (.script source :: (textSegment before ++ found)) rest := by
  rw [segmentsFrom]
  split <;> rename_i ho <;> rw [ho]
  dsimp only
  split
  · rfl
  · split <;> rename_i hc <;> rw [hc]

theorem segmentsFrom_of_none (ho : cutMark? scriptOpen s = none) :
    segmentsFrom found s = found.reverse ++ lastSegments s := by
  rw [segmentsFrom_eq, ho]

theorem segmentsFrom_of_tail (ho : cutMark? scriptOpen s = some (before, body))
    (ht : HasMark scriptTail before) : segmentsFrom found s = found.reverse ++ lastSegments s := by
  rw [segmentsFrom_eq, ho]
  dsimp only
  rw [if_pos ((cutMark?_isSome_iff (by decide)).mpr ht)]

theorem segmentsFrom_of_unclosed (ho : cutMark? scriptOpen s = some (before, body))
    (ht : ¬ HasMark scriptTail before) (hc : cutMark? scriptClose body = none) :
    segmentsFrom found s = found.reverse ++ textSegment s := by
  rw [segmentsFrom_eq, ho]
  dsimp only
  rw [if_neg (mt (cutMark?_isSome_iff (by decide)).mp ht), hc]

theorem segmentsFrom_of_span (ho : cutMark? scriptOpen s = some (before, body))
    (ht : ¬ HasMark scriptTail before) (hc : cutMark? scriptClose body = some (source, rest)) :
    segmentsFrom found s = segmentsFrom (.script source :: (textSegment before ++ found)) rest := by
  rw [segmentsFrom_eq, ho]
  dsimp only
  rw [if_neg (mt (cutMark?_isSome_iff (by decide)).mp ht), hc]

end

/-! ### The reading is the segments -/

theorem reverse_textSegment (s : List Char) : (textSegment s).reverse = textSegment s := by
  unfold textSegment
  dsimp only
  split <;> rfl

/-- Where the first mark is that of a script which takes up the rest, it stands before every opening
mark. -/
theorem hasMark_front_of_tail {before mark source front opening body : List Char}
    (hbefore : Free before) (hmark : asciiLower mark = scriptTail)
    (hopening : asciiLower opening = scriptOpen)
    (hs : before ++ mark ++ source = front ++ opening ++ body) : HasMark scriptTail front := by
  by_contra hfront
  have htail : HasMark scriptTail (front ++ opening ++ body) := hs ▸ hasMark_append hmark
  have hbody := ((hasMark_scriptTail_append_iff hopening).mp htail).resolve_left hfront
  cases hcut : cutMark? scriptTail body with
  | none => exact (cutMark?_eq_none_iff (by decide)).mp hcut hbody
  | some cut =>
    -- the opening mark stands before the first mark of a last script, hence in `before`
    obtain ⟨x, y⟩ := cut
    obtain ⟨mark', rfl, hmark', hx⟩ := eq_append_of_cutMark? (by decide) hcut
    have hfree : ¬ HasMark scriptTail (front ++ opening ++ x) := by
      rw [hasMark_scriptTail_append_iff hopening, not_or]
      exact ⟨hfront, hx⟩
    have hfirst := cutMark?_scriptTail hbefore.tails hmark source
    have hfirst' := cutMark?_scriptTail hfree hmark' y
    rw [show front ++ opening ++ x ++ mark' ++ y = before ++ mark ++ source by simp [hs], hfirst]
      at hfirst'
    obtain ⟨rfl, -⟩ := Prod.mk.inj (Option.some.inj hfirst')
    exact hbefore.opens (hasMark_append hopening)

/-- A script that takes up the rest begins before any that is opened. -/
theorem segmentsFrom_tail {before mark : List Char} (hbefore : Free before)
    (hmark : asciiLower mark = scriptTail) (source : List Char) (found : List Segment) :
    segmentsFrom found (before ++ mark ++ source) =
      found.reverse ++ (textSegment before ++ [.script source]) := by
  have hlast : lastSegments (before ++ mark ++ source) = textSegment before ++ [.script source] := by
    rw [lastSegments, cutMark?_scriptTail hbefore.tails hmark source]
  rw [← hlast]
  cases ho : cutMark? scriptOpen (before ++ mark ++ source) with
  | none => exact segmentsFrom_of_none ho
  | some cut =>
    obtain ⟨front, body⟩ := cut
    obtain ⟨opening, hs, hopening, -⟩ := eq_append_of_cutMark? (by decide) ho
    exact segmentsFrom_of_tail ho (hasMark_front_of_tail hbefore hmark hopening hs)

theorem Reading.segmentsFrom_eq {s : List Char} {l : List Segment} (h : Reading s l)
    (found : List Segment) : segmentsFrom found s = found.reverse ++ l := by
  induction h generalizing found with
  | @plain s h =>
    have ht := (cutMark?_eq_none_iff (by decide)).mpr h.tails
    rw [segmentsFrom_of_none ((cutMark?_eq_none_iff (by decide)).mpr h.opens), lastSegments, ht]
  | tail source hbefore hmark => exact segmentsFrom_tail hbefore hmark source found
  | unclosed hbefore hmark hbody =>
    exact segmentsFrom_of_unclosed (cutMark?_scriptOpen hbefore.opens hmark _) hbefore.tails
      ((cutMark?_eq_none_iff (by decide)).mpr hbody)
  | @span before opening source closing rest l hbefore hopening hsource hclosing _ ih =>
    rw [segmentsFrom_of_span (cutMark?_scriptOpen hbefore.opens hopening _) hbefore.tails
      (cutMark?_scriptClose hsource hclosing rest), ih]
    simp [reverse_textSegment]

/-- Every rule has a reading. -/
theorem exists_reading (s : List Char) : ∃ l, Reading s l := by
  induction hn : s.length using Nat.strong_induction_on generalizing s with
  | _ n ih =>
    cases ho : cutMark? scriptOpen s with
    | none =>
      have hopen := (cutMark?_eq_none_iff (by decide)).mp ho
      cases ht : cutMark? scriptTail s with
      | none => exact ⟨_, .plain ⟨hopen, (cutMark?_eq_none_iff (by decide)).mp ht⟩⟩
      | some cut =>
        obtain ⟨before, source⟩ := cut
        obtain ⟨mark, rfl, hmark, hbefore⟩ := eq_append_of_cutMark? (by decide) ht
        exact ⟨_, .tail source ⟨fun h => hopen (h.mono ⟨[], mark ++ source, by simp⟩), hbefore⟩ hmark⟩
    | some cut =>
      obtain ⟨before, body⟩ := cut
      obtain ⟨opening, rfl, hopening, hopen⟩ := eq_append_of_cutMark? (by decide) ho
      cases ht : cutMark? scriptTail before with
      | some cut =>
        obtain ⟨front, source⟩ := cut
        obtain ⟨mark, rfl, hmark, hfront⟩ := eq_append_of_cutMark? (by decide) ht
        have hfree : Free front := ⟨fun h => hopen (h.mono ⟨[], mark ++ source, by simp⟩), hfront⟩
        exact ⟨_, by simpa using Reading.tail (source ++ opening ++ body) hfree hmark⟩
      | none =>
        have hfree : Free before := ⟨hopen, (cutMark?_eq_none_iff (by decide)).mp ht⟩
        cases hc : cutMark? scriptClose body with
        | none => exact ⟨_, .unclosed hfree hopening ((cutMark?_eq_none_iff (by decide)).mp hc)⟩
        | some cut =>
          obtain ⟨source, rest⟩ := cut
          obtain ⟨closing, rfl, hclosing, hsource⟩ := eq_append_of_cutMark? (by decide) hc
          have hshorter : rest.length < n := by
            have := congrArg List.length hopening
            simp [asciiLower, scriptOpen] at this hn
            omega
          obtain ⟨l, hl⟩ := ih _ hshorter rest rfl
          exact ⟨_, .span hfree hopening hsource hclosing hl⟩

/-- **The segments of a rule** are those that it is read as. -/
theorem segments_eq_iff {rule : List Char} {l : List Segment} :
    segments rule = l ↔ Reading rule l := by
  constructor
  · rintro rfl
    obtain ⟨l, hl⟩ := exists_reading rule
    rwa [segments, hl.segmentsFrom_eq]
  · intro h
    rw [segments, h.segmentsFrom_eq, List.reverse_nil, List.nil_append]

end Scrape.Rule
