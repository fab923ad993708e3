import Scrape.Chain.Step
import Scrape.Proofs.Css.Scope
import Scrape.Proofs.Text.Blank

/-!
# Chain — Demand

What a step that picks nothing by its position asks of an element: to meet a selector, to have some
classes, or to hold a text (`Demand`).  Below an element such a step selects what meets its demand,
in the order of the page (`selectStep_of_isPlain`).
-/

namespace Scrape.Chain

open Scrape.Html (Element)
open Scrape.Rule (splitIndexSuffix)
open Scrape.Text (after? trim trim_trim words)

/-- What a step asks of an element. -/
inductive Demand where
  /-- It meets a selector. -/
  | selector (css : List Char)
  /-- It has all of some classes, of which there is one at least. -/
  | classes (names : List String)
  /-- Its own text holds a text. -/
  | ownText (needle : List Char)

namespace Demand

/-- What a step asks that picks nothing by its position. -/
def ofStep (step : List Char) : Demand :=
  match after? "tag.".toList step with
  | some name => .selector (trim name)
  | none =>
  match after? "class.".toList step with
  | some names => .classes ((words names).map String.ofList)
  | none =>
  match after? "id.".toList step with
  | some id => .selector (idSelector id)
  | none =>
  match after? "text.".toList step with
  | some needle => .ownText needle
  | none        => .selector (trim step)

/-- Whether an element is as demanded.  A text that is no selector is met by nothing. -/
def holds (e : Element) : Demand → Bool
  | selector css   => (Css.parse? css).any fun selectors => Css.anyHolds selectors ⟨e, none⟩ e
  | classes names  => !names.isEmpty && names.all (Css.classes e).contains
  | ownText needle => Text.contains needle (Node.element e).ownText.toList

/-- Whether no selector is used that asks for the element the search starts from. -/
def isScopeFree : Demand → Bool
  | selector css => (Css.parse? css).all Css.allScopeFree
  | classes _    => true
  | ownText _    => true

end Demand

/-- A step that picks nothing by its position: no index set, no mark of a position and no exclusion
stands in it, and it is not the step to the children. -/
structure IsPlain (step : List Char) : Prop where
  index : (splitIndexSuffix step).2 = none
  position : (splitPosition step).2 = none
  exclusion : '!' ∉ step
  children : step ≠ "children".toList

variable {e : Element} {step css : List Char}

/-! ### What is split off a step -/

theorem splitIndexSuffix_of_none (h : (splitIndexSuffix step).2 = none) :
    splitIndexSuffix step = (trim step, none) := by
  unfold splitIndexSuffix at h ⊢
  grind

theorem splitPosition_of_none (h : (splitPosition css).2 = none) :
    splitPosition css = (css, none) := by
  unfold splitPosition at h ⊢
  grind

/-! ### What a step selects -/

/-- The elements below an element that are as demanded. -/
def met (demand : Demand) (e : Element) : List Element :=
  e.descendants.filter fun x => demand.holds x

theorem met_selector (e : Element) {css : List Char}
    (h : (Demand.selector css).isScopeFree = true) :
    met (.selector css) e = (Css.select? css e).getD [] := by
  rw [met, Css.select?]
  cases hparse : Css.parse? css with
  | none => simp [Demand.holds, hparse]
  | some selectors =>
    have hfree : Css.allScopeFree selectors = true := by simpa [Demand.isScopeFree, hparse] using h
    have hscope (x : Element) : Css.anyHolds selectors ⟨x, none⟩ x =
        Css.anyHolds selectors ⟨e, none⟩ x :=
      Css.anyHolds_scope x e none selectors hfree x
    simp [Demand.holds, hparse, Css.select, hscope]

theorem map_met_classes (e : Element) (names : List Char) :
    (met (.classes ((words names).map String.ofList)) e).map .element =
      selectClass (.element e) names := by
  unfold met selectClass
  simp only [Demand.holds]
  split
  · next h => simp [h]
  · next h => simp [h, below, Node.element?]

theorem map_met_ownText (e : Element) (needle : List Char) :
    (met (.ownText needle) e).map .element = selectText (.element e) needle := by
  rw [met, selectText, List.filter_map]
  rfl

theorem map_met_selector_trim (e : Element) {css : List Char}
    (h : (Demand.selector (trim css)).isScopeFree = true) :
    (met (.selector (trim css)) e).map .element = selectCss (.element e) css := by
  rw [met_selector e h, selectCss]
  split
  · next hempty =>
    rw [List.isEmpty_iff.mp hempty]
    rfl
  · rfl

theorem map_met_selector_id (e : Element) {id : List Char}
    (h : (Demand.selector (idSelector id)).isScopeFree = true) :
    (met (.selector (idSelector id)) e).map .element = selectId (.element e) id := by
  rw [met_selector e h, Css.select?, selectId]
  cases Css.parse? (idSelector id) <;> rfl

/-- **A step that picks nothing by its position** selects below an element what meets its
demand. -/
theorem selectStep_of_isPlain (e : Element) {step : List Char} (hstep : IsPlain step)
    (htrim : trim step = step) (hfree : (Demand.ofStep step).isScopeFree = true) :
    selectStep (.element e) step = (met (.ofStep step) e).map .element := by
  have hindex := splitIndexSuffix_of_none hstep.index
  have hone : selectStep (.element e) step = selectOne (.element e) step := by
    rw [selectStep, htrim]
    simp [hstep.exclusion]
  rw [hone]
  unfold selectOne Demand.ofStep at *
  simp only [htrim, hindex, picked, Option.or]
  cases htag : after? "tag.".toList step with
  | some name =>
    simp only [htag] at hfree ⊢
    exact congrArg (List.map Node.element) (met_selector e hfree).symm
  | none =>
  cases hclass : after? "class.".toList step with
  | some names => exact (map_met_classes e names).symm
  | none =>
  cases hid : after? "id.".toList step with
  | some id =>
    simp only [htag, hclass, hid] at hfree ⊢
    exact (map_met_selector_id e hfree).symm
  | none =>
  cases htext : after? "text.".toList step with
  | some needle => exact (map_met_ownText e needle).symm
  | none =>
    simp only [htag, hclass, hid, htext, if_neg hstep.children,
      splitPosition_of_none hstep.position] at hfree ⊢
    rw [← map_met_selector_trim e hfree, htrim]

end Scrape.Chain
