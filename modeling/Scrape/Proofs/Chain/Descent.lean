import Scrape.Chain.Select
import Scrape.Proofs.Chain.Demand
import Scrape.Proofs.Html.Order
import Scrape.Proofs.Rule.Composite

/-!
# Chain — Descent

A chain of steps that pick nothing by their positions leads from an element down: each step goes to
some element below that meets its demand (`Descends`).

Each step of a chain selects below every element that the step before has selected, and these may be
nested.  Elements in the order of the page are taken to elements in the order of the page all the
same (`exists_distinct_flatMap_met`): of what is selected below a later element, only that is new
which is not below an earlier one, and it comes after all that is.

Main statement (`elements_of_isChain`): a rule that is such a chain selects what it leads to, each
element once and in the order of the page.
-/

namespace Scrape.Chain

open Relation (ReflTransGen TransGen)
open Scrape.Html (Element)
open Scrape.Html.Element (IsChild Precedes pairwise_descendants mem_descendants_iff eq_of_place_eq
  precedes_of_below)
open Scrape.Rule (splitComposite? leadingTag? withoutTag isCssTagged)
open Scrape.Text (trim trim_trim trimStart_trim)

/-- The steps lead from an element to another: each goes to an element below the one before that
meets its demand. -/
inductive Descends : Element → List (List Char) → Element → Prop where
  | stay (e : Element) : Descends e [] e
  | down {e x y : Element} {step : List Char} {steps : List (List Char)}
      (hbelow : TransGen IsChild e x) (hmeets : (Demand.ofStep step).holds x = true)
      (hrest : Descends x steps y) : Descends e (step :: steps) y

variable {start e x y : Element} {step : List Char} {steps : List (List Char)}
  {found l m : List Element} {demand : Demand}

theorem descends_nil_iff : Descends e [] y ↔ y = e :=
  ⟨fun h => by cases h; rfl, fun h => h ▸ .stay e⟩

theorem descends_cons_iff :
    Descends e (step :: steps) y ↔
      ∃ x, TransGen IsChild e x ∧ (Demand.ofStep step).holds x = true ∧ Descends x steps y := by
  constructor
  · rintro (_ | ⟨hbelow, hmeets, hrest⟩)
    exact ⟨_, hbelow, hmeets, hrest⟩
  · rintro ⟨x, hbelow, hmeets, hrest⟩
    exact .down hbelow hmeets hrest

/-! ### Each element once -/

theorem distinct_concat (nodes : List Node) (n : Node) :
    distinct (nodes ++ [n]) =
      if (distinct nodes).any (sameElement n) then distinct nodes else distinct nodes ++ [n] := by
  simp only [distinct, List.foldl_append, List.foldl_cons, List.foldl_nil, List.any_reverse]
  split <;> simp

/-- Whether no element of a list is at the place of an element. -/
def isNew (found : List Element) (x : Element) : Bool := !found.any x.samePlace

theorem isNew_iff : isNew found x = true ↔ ∀ y ∈ found, x.place ≠ y.place := by
  simp [isNew, Element.samePlace]

theorem any_sameElement :
    (found.map Node.element).any (sameElement (.element x)) = !isNew found x := by
  rw [List.any_map, isNew, Bool.not_not]
  rfl

/-- Of further elements at different places, those are kept that are new. -/
theorem distinct_append (hl : distinct (l.map .element) = found.map .element)
    (hm : m.Pairwise fun x y => x.place ≠ y.place) :
    distinct ((l ++ m).map .element) = (found ++ m.filter (isNew found)).map .element := by
  induction m using List.reverseRecOn with
  | nil => simpa using hl
  | append_singleton m x ih =>
    obtain ⟨hm, -, hx⟩ := List.pairwise_append.mp hm
    have hnew : isNew (found ++ m.filter (isNew found)) x = isNew found x := by
      rw [Bool.eq_iff_iff, isNew_iff, isNew_iff]
      refine ⟨fun h y hy => h y (List.mem_append_left _ hy), fun h y hy => ?_⟩
      rcases List.mem_append.mp hy with hy | hy
      · exact h y hy
      · exact (hx y (List.mem_filter.mp hy).1 x (List.mem_singleton_self x)).symm
    rw [← List.append_assoc, List.map_append, List.map_singleton, distinct_concat, ih hm,
      any_sameElement, hnew, List.filter_append]
    cases hfound : isNew found x <;> simp [hfound]

/-! ### One step -/

theorem mem_met_iff : x ∈ met demand e ↔ TransGen IsChild e x ∧ demand.holds x = true := by
  rw [met, List.mem_filter, mem_descendants_iff]

theorem pairwise_met (demand : Demand) (e : Element) : (met demand e).Pairwise Precedes :=
  (pairwise_descendants e).filter _

/-- **A step from several elements** of one page in the order of the page gives what is below one of
them and meets the demand, each element once and in the order of the page. -/
theorem exists_distinct_flatMap_met (demand : Demand) (hl : l.Pairwise Precedes)
    (hreach : ∀ n ∈ l, ReflTransGen IsChild start n) :
    ∃ found : List Element, distinct ((l.flatMap (met demand)).map .element) = found.map .element ∧
      found.Pairwise Precedes ∧
      ∀ x, x ∈ found ↔ ∃ n ∈ l, TransGen IsChild n x ∧ demand.holds x = true := by
  induction l using List.reverseRecOn with
  | nil => exact ⟨[], rfl, .nil, by simp⟩
  | append_singleton l n ih =>
    obtain ⟨hl, -, hbefore⟩ := List.pairwise_append.mp hl
    obtain ⟨found, hfound, hsorted, hmem⟩ :=
      ih hl fun n hn => hreach n (List.mem_append_left _ hn)
    have hn : ReflTransGen IsChild start n := hreach n (by simp)
    refine ⟨found ++ (met demand n).filter (isNew found), ?_, ?_, fun x => ?_⟩
    · rw [List.flatMap_append, List.flatMap_singleton]
      exact distinct_append hfound ((pairwise_met demand n).imp Precedes.place_ne)
    · refine List.pairwise_append.mpr
        ⟨hsorted, (pairwise_met demand n).filter _, fun x hx y hy => ?_⟩
      obtain ⟨m, hm, hmx, -⟩ := (hmem x).mp hx
      obtain ⟨hy, hnew⟩ := List.mem_filter.mp hy
      obtain ⟨hny, hmeets⟩ := mem_met_iff.mp hy
      have hmy : m.Precedes y := (hbefore m hm n (by simp)).trans (precedes_of_below hny)
      -- what is new is not below the earlier element, hence after all that is
      have hnot : ¬ ReflTransGen IsChild m y := by
        intro h
        rcases Relation.reflTransGen_iff_eq_or_transGen.mp h with rfl | h
        · exact hmy.place_ne rfl
        · exact isNew_iff.mp hnew y ((hmem y).mpr ⟨m, hm, h, hmeets⟩) rfl
      exact hmy.of_not_reaches (hreach m (by simp [hm])) (hn.trans hny.to_reflTransGen) hnot
        hmx.to_reflTransGen
    · simp only [List.mem_append, List.mem_singleton, List.mem_filter, hmem, mem_met_iff]
      constructor
      · rintro (⟨m, hm, h⟩ | ⟨h, -⟩)
        · exact ⟨m, .inl hm, h⟩
        · exact ⟨n, .inr rfl, h⟩
      · rintro ⟨m, hm | rfl, hmx, hmeets⟩
        · exact .inl ⟨m, hm, hmx, hmeets⟩
        · cases hnew : isNew found x with
          | true => exact .inr ⟨⟨hmx, hmeets⟩, rfl⟩
          | false =>
            -- an element at the same place has been found, and it is the element
            obtain ⟨y, hy, hplace⟩ : ∃ y ∈ found, x.place = y.place := by
              simpa [isNew, Element.samePlace] using hnew
            obtain ⟨k, hk, hky, hmeets'⟩ := (hmem y).mp hy
            have hreach_y := (hreach k (by simp [hk])).trans hky.to_reflTransGen
            obtain rfl := eq_of_place_eq (hn.trans hmx.to_reflTransGen) hreach_y hplace
            exact .inl ⟨k, hk, hky, hmeets'⟩

/-! ### Chains -/

/-- **A chain from several elements** of one page in the order of the page gives what it leads to
from one of them. -/
theorem exists_follow (hplain : ∀ step ∈ steps, IsPlain step)
    (htrim : ∀ step ∈ steps, trim step = step)
    (hfree : ∀ step ∈ steps, (Demand.ofStep step).isScopeFree = true) (hl : l.Pairwise Precedes)
    (hreach : ∀ n ∈ l, ReflTransGen IsChild start n) :
    ∃ found : List Element, follow selectStep (l.map .element) steps = found.map .element ∧
      found.Pairwise Precedes ∧ ∀ x, x ∈ found ↔ ∃ n ∈ l, Descends n steps x := by
  induction steps generalizing l with
  | nil => exact ⟨l, rfl, hl, by simp [descends_nil_iff]⟩
  | cons step steps ih =>
    simp only [List.forall_mem_cons] at hplain htrim hfree
    obtain ⟨next, hnext, hsorted, hmem⟩ :=
      exists_distinct_flatMap_met (.ofStep step) hl hreach
    have hselect : (l.map Node.element).flatMap (fun n => selectStep n step) =
        (l.flatMap (met (.ofStep step))).map .element := by
      rw [List.flatMap_map, List.map_flatMap]
      exact List.flatMap_congr fun e _ =>
        selectStep_of_isPlain e hplain.1 htrim.1 hfree.1
    have hreach_next : ∀ x ∈ next, ReflTransGen IsChild start x := by
      intro x hx
      obtain ⟨n, hn, hnx, -⟩ := (hmem x).mp hx
      exact (hreach n hn).trans hnx.to_reflTransGen
    obtain ⟨found, hfound, hsorted', hmem'⟩ :=
      ih hplain.2 htrim.2 hfree.2 hsorted hreach_next
    refine ⟨found, ?_, hsorted', fun x => ?_⟩
    · rw [follow, List.foldl_cons, hselect, hnext]
      exact hfound
    · simp only [hmem', hmem, descends_cons_iff]
      constructor
      · rintro ⟨z, ⟨n, hn, hnz, hmeets⟩, hrest⟩
        exact ⟨n, hn, z, hnz, hmeets, hrest⟩
      · rintro ⟨n, hn, z, hnz, hmeets, hrest⟩
        exact ⟨z, ⟨n, hn, hnz, hmeets⟩, hrest⟩

/-! ### Rules -/

/-- The steps of a rule. -/
def stepsOf (rule : List Char) : List (List Char) := parts (trim rule)

/-- The rule is a chain of steps that pick nothing by their positions: it has no tag and no
operator, and its last step is not the name of what to read. -/
structure IsChain (rule : List Char) : Prop where
  untagged : leadingTag? (trim rule) = none
  single : splitComposite? (trim rule) = none
  plain : ∀ step ∈ stepsOf rule, IsPlain step
  selects : ∀ last ∈ (stepsOf rule).getLast?, Reading.ofName? last = none

theorem trim_of_mem_stepsOf {rule : List Char} (h : step ∈ stepsOf rule) : trim step = step :=
  Rule.trim_of_mem_split h

theorem withoutReading_of_isChain {rule : List Char} (h : IsChain rule) :
    withoutReading (stepsOf rule) = stepsOf rule := by
  unfold withoutReading
  split
  · next last hlast =>
    have hstep : last ∈ stepsOf rule := List.mem_of_getLast? hlast
    rw [trim_of_mem_stepsOf hstep, h.selects last hlast]
    simp
  · rfl

/-- A rule that is a chain selects what its steps select one after the other. -/
theorem elements_eq_selectSteps {options : Options} {rule : List Char} (h : IsChain rule)
    (hoptions : options.unwrapLists = false) (hrule : trim rule ≠ []) (n : Node) :
    elements options n rule = selectSteps n (stepsOf rule) := by
  have htag : isCssTagged (trim rule) = false := by rw [isCssTagged, trim_trim, h.untagged]
  have hwithout : withoutTag (trim rule) = trim rule := by
    rw [withoutTag, trimStart_trim, h.untagged]
  have hparts : withoutReading (parts (trim rule)) = parts (trim rule) :=
    withoutReading_of_isChain h
  rw [elements, Rule.composed, if_neg (by simpa using hrule), Rule.Composite.tree,
    Rule.Composite.Tree.ofRule_of_plain h.single, Rule.Composite.Tree.results, leafElements]
  simp [htag, hwithout, hparts, hoptions, stepsOf]

/-- The one step of an empty rule leads nowhere, since an empty text is no selector. -/
theorem not_descends_of_empty {rule : List Char} (h : trim rule = []) :
    ¬ Descends e (stepsOf rule) y := by
  have hsteps : stepsOf rule = [[]] := by
    rw [stepsOf, h]
    rfl
  rw [hsteps, descends_cons_iff]
  rintro ⟨x, -, hmeets, -⟩
  cases hmeets

/-- **A chain leads down the page.**  A rule that is a chain of steps which pick nothing by their
positions, and use no selector that asks for the element the search starts from, selects below an
element exactly the elements that its steps lead to, each once and in the order of the page. -/
theorem elements_of_isChain {options : Options} (hoptions : options.unwrapLists = false)
    {rule : List Char} (hchain : IsChain rule)
    (hfree : ∀ step ∈ stepsOf rule, (Demand.ofStep step).isScopeFree = true) (start : Element) :
    ∃ found : List Element, elements options (.element start) rule = found.map .element ∧
      found.Pairwise Precedes ∧ ∀ e, e ∈ found ↔ Descends start (stepsOf rule) e := by
  by_cases hrule : trim rule = []
  · refine ⟨[], ?_, .nil, fun e => ⟨nofun, fun h => absurd h (not_descends_of_empty hrule)⟩⟩
    rw [elements, Rule.composed, hrule]
    rfl
  · have hreach : ∀ n ∈ [start], ReflTransGen IsChild start n := by simp [ReflTransGen.refl]
    obtain ⟨found, hfound, hsorted, hmem⟩ :=
      exists_follow hchain.plain (fun _ => trim_of_mem_stepsOf) hfree
        (List.pairwise_singleton _ _) hreach
    refine ⟨found, ?_, hsorted, by simpa using hmem⟩
    rw [elements_eq_selectSteps hchain hoptions hrule]
    exact hfound

/-- A page with a list in an item of a list, and a link in each item. -/
def nestedList : Element :=
  .top ⟨.html, "div", []⟩
    [.element ⟨.html, "ul", []⟩
      [.element ⟨.html, "li", [⟨.plain, "class", "row new"⟩]⟩
        [.element ⟨.html, "ul", []⟩
          [.element ⟨.html, "li", [⟨.plain, "class", "row"⟩]⟩
            [.element ⟨.html, "a", []⟩ [.text "inner"]]],
         .element ⟨.html, "a", []⟩ [.text "outer"]]]]

/-- The links in rows of lists. -/
def linksInRows : List Char := "tag.ul@class.row@a".toList

/-- Options that do not take a list for its rows. -/
def plainOptions : Options := { unwrapLists := false }

/-- The inner link is below both lists and both rows, and is selected once and first. -/
theorem elements_linksInRows :
    (elements plainOptions (.element nestedList) linksInRows).map (·.element?.map Element.place) =
        [some [0, 0, 0, 0, 0], some [1, 0, 0]] ∧
      ∃ found : List Element,
        elements plainOptions (.element nestedList) linksInRows = found.map .element ∧
          found.Pairwise Precedes ∧
            ∀ e, e ∈ found ↔ Descends nestedList (stepsOf linksInRows) e := by
  have hsteps : stepsOf linksInRows = ["tag.ul".toList, "class.row".toList, "a".toList] := by
    decide +kernel
  have hchain : IsChain linksInRows :=
    { untagged := by decide +kernel
      single := by decide +kernel
      plain := by
        rw [hsteps]
        simp only [List.forall_mem_cons]
        exact ⟨⟨by decide +kernel, by decide +kernel, by decide, by decide⟩,
          ⟨by decide +kernel, by decide +kernel, by decide, by decide⟩,
          ⟨by decide +kernel, by decide +kernel, by decide, by decide⟩, nofun⟩
      selects := by
        rw [hsteps]
        simp only [List.getLast?_cons_cons, List.getLast?_singleton, Option.mem_some_iff,
          forall_eq']
        decide +kernel }
  have hfree : ∀ step ∈ stepsOf linksInRows, (Demand.ofStep step).isScopeFree = true := by
    rw [hsteps]
    decide +kernel
  exact ⟨by decide +kernel, elements_of_isChain rfl hchain hfree nestedList⟩

end Scrape.Chain
