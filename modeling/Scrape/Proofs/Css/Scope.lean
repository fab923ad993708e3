import Scrape.Css.Match

/-!
# Css — Scope

Selectors that do not ask for the element the search starts from (`Selector.isScopeFree`).  Whether
an element meets one does not depend on where the search starts, so that such a selector is a
property of elements of a page (`anyHolds_scope`).
-/

namespace Scrape.Css

open Scrape.Html (Element)

mutual

/-- Whether the condition says nothing of the element the search starts from. -/
def Condition.isScopeFree : Condition → Bool
  | .always         => true
  | .never          => true
  | .type _         => true
  | .id _           => true
  | .className _    => true
  | .attribute _    => true
  | .nth _          => true
  | .root           => true
  | .empty          => true
  | .scope          => false
  | .anchor         => true
  | .any selectors  => allScopeFree selectors
  | .none selectors => allScopeFree selectors
  | .has selectors  => allScopeFree selectors

/-- Whether no condition says anything of the element the search starts from. -/
def isScopeFreeCompound : List Condition → Bool
  | []     => true
  | c :: r => c.isScopeFree && isScopeFreeCompound r

/-- Whether the selector says nothing of the element the search starts from. -/
def Selector.isScopeFree : Selector → Bool
  | .one compound          => isScopeFreeCompound compound
  | .after left _ compound => left.isScopeFree && isScopeFreeCompound compound

/-- Whether no selector says anything of the element the search starts from. -/
def allScopeFree : List Selector → Bool
  | []     => true
  | s :: r => s.isScopeFree && allScopeFree r

end

mutual

theorem Condition.holds_scope (a b : Element) (anchor? : Option Element) (c : Condition)
    (h : c.isScopeFree = true) (e : Element) : c.holds ⟨a, anchor?⟩ e = c.holds ⟨b, anchor?⟩ e := by
  cases c with
  | scope => cases h
  | any selectors => rw [Condition.holds, Condition.holds, anyHolds_scope a b _ selectors h]
  | none selectors => rw [Condition.holds, Condition.holds, anyHolds_scope a b _ selectors h]
  | has selectors =>
    -- what is below or beside is looked at with the element as the anchor, from either start
    rw [Condition.holds, Condition.holds]
    exact List.any_congr rfl (anyHolds_scope a b (some e) selectors h)
  | _ => rfl

theorem allHold_scope (a b : Element) (anchor? : Option Element) (compound : List Condition)
    (h : isScopeFreeCompound compound = true) (e : Element) :
    allHold compound ⟨a, anchor?⟩ e = allHold compound ⟨b, anchor?⟩ e := by
  cases compound with
  | nil => rfl
  | cons c r =>
    obtain ⟨hc, hr⟩ := (Bool.and_eq_true _ _).mp h
    rw [allHold, allHold, c.holds_scope a b _ hc, allHold_scope a b _ r hr]

theorem Selector.holds_scope (a b : Element) (anchor? : Option Element) (s : Selector)
    (h : s.isScopeFree = true) (e : Element) : s.holds ⟨a, anchor?⟩ e = s.holds ⟨b, anchor?⟩ e := by
  cases s with
  | one compound => rw [Selector.holds, Selector.holds, allHold_scope a b _ compound h]
  | after left combinator compound =>
    obtain ⟨hleft, hcompound⟩ := (Bool.and_eq_true _ _).mp h
    have hsource := List.any_congr (rfl : combinator.sources e = combinator.sources e)
      (left.holds_scope a b anchor? hleft)
    rw [Selector.holds, Selector.holds, allHold_scope a b _ compound hcompound, hsource]

/-- **Selectors that do not ask for the start** are met or not wherever the search starts. -/
theorem anyHolds_scope (a b : Element) (anchor? : Option Element) (selectors : List Selector)
    (h : allScopeFree selectors = true) (e : Element) :
    anyHolds selectors ⟨a, anchor?⟩ e = anyHolds selectors ⟨b, anchor?⟩ e := by
  cases selectors with
  | nil => rfl
  | cons s r =>
    obtain ⟨hs, hr⟩ := (Bool.and_eq_true _ _).mp h
    rw [anyHolds, anyHolds, s.holds_scope a b _ hs, anyHolds_scope a b _ r hr]

end

end Scrape.Css
