import Mathlib.Data.List.TakeWhile
import Mathlib.Logic.IsEmpty.Basic
import Scrape.Html.Unscripted

/-!
# Html — Unscripted, what is left

What is left out of a text are elements, each from a start tag to an end tag of its name; a text
without such elements stays as it is (`unscripted_eq_self_iff`).  Where an element has been left
out, what was before it and what was after it meet at a seam (`Seam`), and a tag can come to be
there that was not in the text before (`ScriptElement.Torn`).

Main statement (`unscripted_unscripted_iff`): in what is left of a text each element has a tag with
a seam in it, so that nothing more would be left out exactly when no element has such a tag.
-/

namespace Scrape.Html

open Scrape.Text (foldKey isWordChar)

variable {name lead s t rest u v w : List Char} {c : Char}

/-! ### Tags -/

/-- What is read is a beginning of the text, which is read in the same way before any other rest. -/
theorem exists_of_afterFolded? (h : afterFolded? lead s = some rest) :
    ∃ start, s = start ++ rest ∧ start.length = lead.length ∧
      ∀ t, afterFolded? lead (start ++ t) = some t := by
  fun_induction afterFolded? lead s with
  | case1 s => exact ⟨[], (Option.some.inj h), rfl, fun _ => rfl⟩
  | case2 => cases h
  | case3 a l c s heq ih =>
    obtain ⟨start, rfl, hlength, hread⟩ := ih h
    exact ⟨c :: start, rfl, congrArg (· + 1) hlength, fun t => (if_pos heq).trans (hread t)⟩
  | case4 => cases h

theorem exists_of_afterOpening? (h : afterOpening? name s = some rest) :
    ∃ start, s = start ++ rest ∧ start ≠ [] ∧
      ∀ t, t.head?.any isWordChar = false → afterOpening? name (start ++ t) = some t := by
  obtain ⟨hfolded, -⟩ := Option.filter_eq_some_iff.mp h
  obtain ⟨start, rfl, hlength, hread⟩ := exists_of_afterFolded? hfolded
  refine ⟨start, rfl, List.ne_nil_of_length_eq_add_one hlength, fun t ht => ?_⟩
  exact Option.filter_eq_some_iff.mpr ⟨hread t, by rw [ht]; rfl⟩

theorem exists_of_afterEnd? (h : afterEnd? name s = some rest) :
    ∃ ending, s = ending ++ rest ∧ ending ≠ [] ∧ ∀ t, afterEnd? name (ending ++ t) = some t := by
  unfold afterEnd? at h
  split at h
  · rename_i r hr
    obtain rfl := Option.some.inj h
    obtain ⟨more, hfolded, hmore⟩ := Option.map_eq_some_iff.mp hr
    obtain ⟨start, rfl, -, hread⟩ := exists_of_afterFolded? hfolded
    let blanks := more.takeWhile Text.isBlank
    have hblanks : ∀ c ∈ blanks, Text.isBlank c = true := fun _ => List.mem_takeWhile_imp
    have hsplit : more = blanks ++ '>' :: r := by
      rw [← hmore, List.takeWhile_append_dropWhile]
    refine ⟨start ++ (blanks ++ ['>']), by simp [hsplit], by simp, fun t => ?_⟩
    have hskip : (blanks ++ '>' :: t).dropWhile Text.isBlank = '>' :: t := by
      rw [List.dropWhile_append_of_pos hblanks]
      rfl
    rw [afterEnd?, List.append_assoc, List.append_assoc, hread, Option.map_some,
      List.singleton_append, hskip]
    rfl
  · cases h

/-- Before an end tag there is what the element holds. -/
theorem exists_of_afterFirstEnd? (h : afterFirstEnd? name s = some rest) :
    ∃ inner ending, s = inner ++ (ending ++ rest) ∧
      afterEnd? name (ending ++ rest) = some rest := by
  induction s with
  | nil => cases h
  | cons c s ih =>
    unfold afterFirstEnd? at h
    split at h
    · rename_i r hend
      obtain rfl := Option.some.inj h
      obtain ⟨ending, heq, -, -⟩ := exists_of_afterEnd? hend
      exact ⟨[], ending, heq, heq ▸ hend⟩
    · obtain ⟨inner, ending, rfl, hend⟩ := ih h
      exact ⟨c :: inner, ending, rfl, hend⟩

theorem afterFirstEnd?_append_ne_none (h : afterEnd? name s = some rest) (inner : List Char) :
    afterFirstEnd? name (inner ++ s) ≠ none := by
  induction inner with
  | nil =>
    cases s with
    | nil => cases h
    | cons c s =>
      rw [List.nil_append, afterFirstEnd?, h]
      exact Option.some_ne_none rest
  | cons c inner ih =>
    rw [List.cons_append, afterFirstEnd?]
    split
    · exact Option.some_ne_none _
    · exact ih

/-! ### Elements -/

/-- An element of a text that is to be left out: a start tag, what the element holds, and an end tag
of its name. -/
structure ScriptElement (t : List Char) where
  name : List Char
  before : List Char
  start : List Char
  inner : List Char
  ending : List Char
  after : List Char
  name_mem : name ∈ scriptNames
  eq : before ++ (start ++ (inner ++ (ending ++ after))) = t
  opens : afterOpening? name (start ++ (inner ++ (ending ++ after))) =
    some (inner ++ (ending ++ after))
  closes : afterEnd? name (ending ++ after) = some after

namespace ScriptElement

/-- What follows the start of the start tag. -/
def tail (e : ScriptElement t) : List Char := e.inner ++ (e.ending ++ e.after)

/-- The element in a longer text. -/
def cons (c : Char) (e : ScriptElement t) : ScriptElement (c :: t) :=
  { e with before := c :: e.before, eq := congrArg (c :: ·) e.eq }

theorem start_ne_nil (e : ScriptElement t) : e.start ≠ [] := by
  obtain ⟨start, heq, hne, -⟩ := exists_of_afterOpening? e.opens
  exact List.append_cancel_right heq ▸ hne

theorem ne_nil (e : ScriptElement t) : t ≠ [] := by
  rw [← e.eq]
  simp [e.start_ne_nil]

theorem ending_ne_nil (e : ScriptElement t) : e.ending ≠ [] := by
  obtain ⟨ending, heq, hne, -⟩ := exists_of_afterEnd? e.closes
  exact List.append_cancel_right heq ▸ hne

/-- The start of the start tag is one before everything that does not go on with the name. -/
theorem afterOpening?_append (e : ScriptElement t) (h : u.head?.any isWordChar = false) :
    afterOpening? e.name (e.start ++ u) = some u := by
  obtain ⟨start, heq, -, hread⟩ := exists_of_afterOpening? e.opens
  exact List.append_cancel_right heq ▸ hread u h

theorem afterEnd?_append (e : ScriptElement t) (u : List Char) :
    afterEnd? e.name (e.ending ++ u) = some u := by
  obtain ⟨ending, heq, -, hread⟩ := exists_of_afterEnd? e.closes
  exact List.append_cancel_right heq ▸ hread u

theorem tail_ne_nil (e : ScriptElement t) : e.tail ≠ [] := by
  rw [tail, Ne, List.append_eq_nil_iff, List.append_eq_nil_iff]
  exact fun h => e.ending_ne_nil h.2.1

theorem tail_head (e : ScriptElement t) : e.tail.head?.any isWordChar = false := by
  have h := (Option.filter_eq_some_iff.mp e.opens).2
  simpa [tail] using h

end ScriptElement

/-- Where an element begins, it is left out. -/
theorem afterScript?_ne_none (hmem : name ∈ scriptNames) (hopens : afterOpening? name s = some u)
    (hcloses : afterFirstEnd? name u ≠ none) : afterScript? s ≠ none := by
  intro h
  have hnone := List.findSome?_eq_none_iff.mp h name hmem
  rw [hopens] at hnone
  exact hcloses hnone

theorem exists_scriptElement_of_afterScript? (h : afterScript? s = some rest) :
    ∃ e : ScriptElement s, e.before = [] ∧ e.after = rest := by
  obtain ⟨name, hmem, hname⟩ := List.exists_of_findSome?_eq_some h
  obtain ⟨u, hopens, hfirst⟩ := Option.bind_eq_some_iff.mp hname
  obtain ⟨start, rfl, -, -⟩ := exists_of_afterOpening? hopens
  obtain ⟨inner, ending, rfl, hcloses⟩ := exists_of_afterFirstEnd? hfirst
  exact ⟨⟨name, [], start, inner, ending, rest, hmem, rfl, hopens, hcloses⟩, rfl, rfl⟩

theorem ScriptElement.before_ne_nil (e : ScriptElement s) (h : afterScript? s = none) :
    e.before ≠ [] := by
  intro hbefore
  have heq := e.eq
  rw [hbefore, List.nil_append] at heq
  refine afterScript?_ne_none e.name_mem (heq ▸ e.opens) ?_ h
  exact afterFirstEnd?_append_ne_none e.closes e.inner

/-! ### What is left -/

theorem unscriptedAfter_of_some (h : afterScript? s = some rest) (acc : List Char) :
    unscriptedAfter acc s = unscriptedAfter acc rest := by
  cases s with
  | nil => cases h
  | cons c s =>
    rw [unscriptedAfter]
    split
    · rename_i r hr
      rw [Option.some.inj (h.symm.trans hr)]
    · rename_i hnone
      cases h.symm.trans hnone

theorem unscriptedAfter_of_none (h : afterScript? (c :: s) = none) (acc : List Char) :
    unscriptedAfter acc (c :: s) = unscriptedAfter (c :: acc) s := by
  rw [unscriptedAfter]
  split
  · rename_i r hr
    cases h.symm.trans hr
  · rfl

/-- What holds of a text if it holds of what follows the element or the character that it begins
with, and of the empty text. -/
@[elab_as_elim]
theorem unscripted_induction {P : List Char → Prop} (nil : P [])
    (skip : ∀ s rest, afterScript? s = some rest → P rest → P s)
    (keep : ∀ c s, afterScript? (c :: s) = none → P s → P (c :: s)) (s : List Char) : P s := by
  have h (acc : List Char) : P s := by
    fun_induction unscriptedAfter acc s with
    | case1 => exact nil
    | case2 _ _ _ rest h ih => exact skip _ rest h ih
    | case3 _ c s h ih => exact keep c s h ih
  exact h []

theorem unscriptedAfter_eq (acc s : List Char) :
    unscriptedAfter acc s = acc.reverse ++ unscripted s := by
  induction s using unscripted_induction generalizing acc with
  | nil => rw [unscripted, unscriptedAfter, unscriptedAfter, List.reverse_nil, List.append_nil]
  | skip s rest h ih =>
    rw [unscripted, unscriptedAfter_of_some h, unscriptedAfter_of_some h, ih, unscripted]
  | keep c s h ih =>
    rw [unscripted, unscriptedAfter_of_none h, unscriptedAfter_of_none h, ih, ih [c],
      List.reverse_cons, List.append_assoc]
    rfl

theorem unscripted_nil : unscripted [] = [] := by
  rw [unscripted, unscriptedAfter, List.reverse_nil]

theorem unscripted_of_some (h : afterScript? s = some rest) : unscripted s = unscripted rest :=
  unscriptedAfter_of_some h []

theorem unscripted_of_none (h : afterScript? (c :: s) = none) :
    unscripted (c :: s) = c :: unscripted s :=
  (unscriptedAfter_of_none h []).trans (unscriptedAfter_eq [c] s)

theorem length_unscripted_le (s : List Char) : (unscripted s).length ≤ s.length := by
  induction s using unscripted_induction with
  | nil => rw [unscripted_nil]
  | skip s rest h ih =>
    rw [unscripted_of_some h]
    exact ih.trans (length_afterScript? h).le
  | keep c s h ih =>
    rw [unscripted_of_none h]
    exact Nat.succ_le_succ ih

/-- An element that does not begin a text is one of what follows its first character. -/
theorem ScriptElement.exists_cons (e : ScriptElement (c :: s)) (h : e.before ≠ []) :
    ∃ e' : ScriptElement s, e = e'.cons c := by
  obtain ⟨name, before, start, inner, ending, after, hmem, heq, hopens, hcloses⟩ := e
  cases before with
  | nil => exact absurd rfl h
  | cons b before =>
    obtain ⟨rfl, rfl⟩ := List.cons.inj heq
    exact ⟨⟨name, before, start, inner, ending, after, hmem, rfl, hopens, hcloses⟩, rfl⟩

/-- **A text stays as it is** exactly when there is no element in it. -/
theorem unscripted_eq_self_iff (t : List Char) : unscripted t = t ↔ IsEmpty (ScriptElement t) := by
  induction t using unscripted_induction with
  | nil =>
    exact iff_of_true unscripted_nil ⟨fun e => e.ne_nil rfl⟩
  | skip t rest h _ =>
    obtain ⟨e, -⟩ := exists_scriptElement_of_afterScript? h
    refine iff_of_false (fun heq => ?_) (not_isEmpty_iff.mpr ⟨e⟩)
    have hlength := length_unscripted_le rest
    rw [← unscripted_of_some h, heq] at hlength
    exact absurd (length_afterScript? h) (Nat.not_lt.mpr hlength)
  | keep c t h ih =>
    rw [unscripted_of_none h, List.cons_inj_right, ih]
    refine ⟨fun hempty => ⟨fun e => ?_⟩, fun hempty => ⟨fun e => hempty.false (e.cons c)⟩⟩
    obtain ⟨e', -⟩ := e.exists_cons (e.before_ne_nil h)
    exact hempty.false e'

/-! ### Seams -/

/-- In what is left of a text, an element has been left out between what is before and what is after
it. -/
inductive Seam : List Char → List Char → List Char → Prop
  | here {s rest : List Char} : afterScript? s = some rest → Seam s [] (unscripted rest)
  | skip {s rest u v : List Char} : afterScript? s = some rest → Seam rest u v → Seam s u v
  | keep {c : Char} {s u v : List Char} : afterScript? (c :: s) = none → Seam s u v →
      Seam (c :: s) (c :: u) v

theorem Seam.unscripted_eq (h : Seam s u v) : unscripted s = u ++ v := by
  induction h with
  | here h => exact unscripted_of_some h
  | skip h _ ih => exact (unscripted_of_some h).trans ih
  | keep h _ ih => exact (unscripted_of_none h).trans (congrArg (_ :: ·) ih)

/-- What stands between `before` and `after` in what is left of a text has a seam in it. -/
def Torn (s before part after : List Char) : Prop :=
  ∃ x y, x ≠ [] ∧ y ≠ [] ∧ part = x ++ y ∧ Seam s (before ++ x) (y ++ after)

theorem Torn.skip (h : afterScript? s = some rest) (htorn : Torn rest u w v) : Torn s u w v := by
  obtain ⟨x, y, hx, hy, heq, hseam⟩ := htorn
  exact ⟨x, y, hx, hy, heq, hseam.skip h⟩

theorem Torn.keep (h : afterScript? (c :: s) = none) (htorn : Torn s u w v) :
    Torn (c :: s) (c :: u) w v := by
  obtain ⟨x, y, hx, hy, heq, hseam⟩ := htorn
  exact ⟨x, y, hx, hy, heq, hseam.keep h⟩

/-- The text begins with a part in which no element begins, before the rest. -/
inductive Kept : List Char → List Char → List Char → Prop
  | nil (s : List Char) : Kept [] s s
  | cons {c : Char} {w s rest : List Char} : afterScript? (c :: s) = none → Kept w s rest →
      Kept (c :: w) (c :: s) rest

namespace Kept

theorem eq_append (h : Kept w s rest) : s = w ++ rest := by
  induction h with
  | nil => rfl
  | cons _ _ ih => exact congrArg (_ :: ·) ih

theorem unscripted_eq (h : Kept w s rest) : unscripted s = w ++ unscripted rest := by
  induction h with
  | nil => rfl
  | cons h _ ih => exact (unscripted_of_none h).trans (congrArg (_ :: ·) ih)

theorem torn {before part after : List Char} (h : Kept w s rest)
    (htorn : Torn rest before part after) : Torn s (w ++ before) part after := by
  induction h with
  | nil => exact htorn
  | cons h _ ih => exact (ih htorn).keep h

theorem exists_of_append (h : Kept (u ++ w) s rest) : ∃ mid, Kept u s mid ∧ Kept w mid rest := by
  induction u generalizing s with
  | nil => exact ⟨s, .nil s, h⟩
  | cons c u ih =>
    cases h with
    | cons hc h =>
      obtain ⟨mid, hu, hw⟩ := ih h
      exact ⟨mid, .cons hc hu, hw⟩

end Kept

/-- What is left of a text with nothing left out at its beginning, if it has no seam up to some
place, is the text itself up to there. -/
theorem exists_kept (hc : afterScript? (c :: s) = none) {d : Char}
    (heq : unscripted (c :: s) = d :: (w ++ v)) (hwhole : ¬ Torn (c :: s) [] (d :: w) v) :
    ∃ rest, Kept (d :: w) (c :: s) rest ∧ unscripted rest = v := by
  induction w generalizing c s d with
  | nil =>
    rw [unscripted_of_none hc] at heq
    obtain ⟨rfl, hrest⟩ := List.cons.inj heq
    exact ⟨s, .cons hc (.nil s), hrest⟩
  | cons d' w ih =>
    rw [unscripted_of_none hc] at heq
    obtain ⟨rfl, hrest⟩ := List.cons.inj heq
    cases s with
    | nil =>
      rw [unscripted_nil] at hrest
      cases hrest
    | cons c' s =>
      cases hc' : afterScript? (c' :: s) with
      | some rest =>
        -- an element has been left out right after the first character
        refine absurd ⟨[c], d' :: w, List.cons_ne_nil _ _, List.cons_ne_nil _ _, rfl, ?_⟩ hwhole
        have hseam := Seam.here hc'
        rw [← unscripted_of_some hc', hrest] at hseam
        exact hseam.keep hc
      | none =>
        have hwhole' : ¬ Torn (c' :: s) [] (d' :: w) v := by
          rintro ⟨x, y, -, hy, hpart, hseam⟩
          exact hwhole ⟨c :: x, y, List.cons_ne_nil _ _, hy, congrArg (c :: ·) hpart, hseam.keep hc⟩
        obtain ⟨rest, hkept, hv⟩ := ih hc' hrest hwhole'
        exact ⟨rest, .cons hc hkept, hv⟩

/-- What has no seam in it has been in the text. -/
theorem exists_eq_append_of_not_torn (hw : w ≠ []) (heq : unscripted s = u ++ (w ++ v))
    (hwhole : ¬ Torn s u w v) : ∃ x rest, s = x ++ (w ++ rest) := by
  induction s using unscripted_induction generalizing u with
  | nil =>
    rw [unscripted_nil] at heq
    simp [hw] at heq
  | skip s rest h ih =>
    rw [unscripted_of_some h] at heq
    obtain ⟨x, rest', hrest⟩ := ih heq fun htorn => hwhole (htorn.skip h)
    obtain ⟨e, -, hafter⟩ := exists_scriptElement_of_afterScript? h
    refine ⟨e.before ++ (e.start ++ (e.inner ++ (e.ending ++ x))), rest', ?_⟩
    simp only [← e.eq, hafter, hrest, List.append_assoc]
  | keep c s h ih =>
    cases u with
    | nil =>
      obtain ⟨d, w, rfl⟩ := List.exists_cons_of_ne_nil hw
      obtain ⟨rest, hkept, -⟩ := exists_kept h heq hwhole
      exact ⟨[], rest, hkept.eq_append⟩
    | cons c' u =>
      rw [unscripted_of_none h] at heq
      obtain ⟨rfl, hleft⟩ := List.cons.inj heq
      obtain ⟨x, rest, hs⟩ := ih hleft fun htorn => hwhole (htorn.keep h)
      exact ⟨c :: x, rest, congrArg (c :: ·) hs⟩

/-! ### Elements that are left -/

/-- A tag of an element, in what is left of a text, has a seam in it: the start of the start tag, up
to the character after the name, or the end tag. -/
def ScriptElement.Torn (s : List Char) (e : ScriptElement t) : Prop :=
  Html.Torn s e.before (e.start ++ e.tail.take 1) (e.tail.drop 1) ∨
    Html.Torn s (e.before ++ (e.start ++ e.inner)) e.ending e.after

/-- What is left of a text begins with no element if nothing has been left out at its beginning,
unless a tag of it has a seam. -/
theorem ScriptElement.torn_of_before_eq_nil (h : afterScript? (c :: s) = none)
    (ht : unscripted (c :: s) = t) (e : ScriptElement t) (hbefore : e.before = []) :
    e.Torn (c :: s) := by
  by_contra hwhole
  obtain ⟨hstart, hending⟩ := not_or.mp hwhole
  rw [hbefore, List.nil_append] at hending
  rw [hbefore] at hstart
  obtain ⟨d, start, hd⟩ := List.exists_cons_of_ne_nil e.start_ne_nil
  rw [hd] at hstart hending
  have hleft : unscripted (c :: s) = d :: (start ++ e.tail.take 1 ++ e.tail.drop 1) := by
    have heq := e.eq
    rw [hbefore, hd] at heq
    rw [List.append_assoc, List.take_append_drop]
    exact ht.trans heq.symm
  -- up to the character after the name, the start tag has been in the text
  obtain ⟨rest, hkept, hrest⟩ := exists_kept h hleft hstart
  obtain ⟨mid, hname, hnext⟩ := Kept.exists_of_append (u := d :: start) hkept
  have hhead : mid.head?.any isWordChar = false := by
    obtain ⟨n, tail, htail⟩ := List.exists_cons_of_ne_nil e.tail_ne_nil
    have h := e.tail_head
    rw [hnext.eq_append, htail]
    rwa [htail] at h
  have hopens := e.afterOpening?_append hhead
  rw [hd, ← hname.eq_append] at hopens
  -- and so has the end tag after it, which would have closed the element
  have hmid : unscripted mid = e.inner ++ (e.ending ++ e.after) := by
    rw [hnext.unscripted_eq, hrest, List.take_append_drop, ScriptElement.tail]
  obtain ⟨x, y, hxy⟩ := exists_eq_append_of_not_torn e.ending_ne_nil hmid fun htorn =>
    hending (hname.torn htorn)
  refine afterScript?_ne_none e.name_mem hopens ?_ h
  rw [hxy]
  exact afterFirstEnd?_append_ne_none (e.afterEnd?_append y) x

theorem ScriptElement.torn (ht : unscripted s = t) (e : ScriptElement t) : e.Torn s := by
  induction s using unscripted_induction generalizing t with
  | nil =>
    subst ht
    exact absurd unscripted_nil e.ne_nil
  | skip s rest h ih =>
    rw [unscripted_of_some h] at ht
    exact (ih ht e).imp (·.skip h) (·.skip h)
  | keep c s h ih =>
    by_cases hbefore : e.before = []
    · exact e.torn_of_before_eq_nil h ht hbefore
    · rw [unscripted_of_none h] at ht
      subst ht
      obtain ⟨e', rfl⟩ := e.exists_cons hbefore
      exact (ih rfl e').imp (·.keep h) (·.keep h)

/-- **What is left of a text.**  There is no element in it exactly when leaving out once more leaves
out nothing.  Each element in it has a tag with a seam in it: the start tag, up to the character
after its name, or the end tag.  So leaving out once is enough exactly when no element in what is
left has such a tag. -/
theorem unscripted_unscripted_iff (s : List Char) :
    (unscripted (unscripted s) = unscripted s ↔ IsEmpty (ScriptElement (unscripted s))) ∧
      (∀ e : ScriptElement (unscripted s), e.Torn s) ∧
      (unscripted (unscripted s) = unscripted s ↔
        ∀ e : ScriptElement (unscripted s), ¬ e.Torn s) := by
  have hself := unscripted_eq_self_iff (unscripted s)
  have htorn : ∀ e : ScriptElement (unscripted s), e.Torn s := fun e => e.torn rfl
  refine ⟨hself, htorn, hself.trans ⟨fun hempty e => hempty.elim e, fun h => ?_⟩⟩
  exact ⟨fun e => h e (htorn e)⟩

/-- An element inside of the start tag of another. -/
def nestedTag : List Char := "<scr<script></script>ipt></script>".toList

theorem nestedTag_left :
    unscripted nestedTag = "<script></script>".toList ∧
      unscripted (unscripted nestedTag) ≠ unscripted nestedTag := by
  let rest := ['i', 'p', 't', '>', '<', '/', 's', 'c', 'r', 'i', 'p', 't', '>']
  have hrest : unscripted rest = rest := by
    simp (disch := decide) only [rest, unscripted_of_none, unscripted_nil]
  have hinner : unscripted ("<script></script>".toList ++ rest) = rest :=
    (unscripted_of_some (by decide)).trans hrest
  have hleft : unscripted nestedTag = "<script></script>".toList := by
    change unscripted ('<' :: 's' :: 'c' :: 'r' :: ("<script></script>".toList ++ rest)) = _
    rw [unscripted_of_none (by decide), unscripted_of_none (by decide),
      unscripted_of_none (by decide), unscripted_of_none (by decide), hinner]
    rfl
  have hagain : unscripted "<script></script>".toList = [] :=
    (unscripted_of_some (by decide)).trans unscripted_nil
  rw [hleft, hagain]
  exact ⟨rfl, by decide⟩

end Scrape.Html
