import Scrape.Proofs.XPath.Block
import Scrape.Proofs.XPath.Leaf

/-!
# XPath — Restriction, predicates of the last step

What one more predicate on the last step of a path does.  After a test of names it restricts what
the query selects to the elements of which it holds, with places counted among those with one parent
(`select_ending_and`).  After `text()` and after an attribute it does nothing: the query selects the
strings of all leaves, whatever the predicates of the step (`select_ending_of_isLeafTest`).

Main statement (`honours_iff`): a predicate is honoured exactly if the last step takes elements, or
the predicate holds of every leaf that it takes.
-/

namespace Scrape.XPath

open Scrape.Html (Element Tag)
open Scrape.Html.Element (OnPage)

variable {tag : Tag} {nodes : List Html.Node} {context : Element} {path : Path} {step : Step}
  {p : Predicate}

/-- A path with one more step. -/
def Path.ending (path : Path) (step : Step) : Path := ⟨path.absolute, path.steps ++ [step]⟩

/-- A step with one more predicate. -/
def Step.and (step : Step) (p : Predicate) : Step :=
  { step with predicates := step.predicates ++ [p] }

theorem evaluate_ending (path : Path) (step : Step) (context : Element) :
    (path.ending step).evaluate context = step.apply (path.evaluate context) := by
  rw [Path.evaluate, Path.ending, List.foldl_concat]
  rfl

/-! ### After a test of names -/

/-- The place of an element among the elements of a list that have its parent, counted from one. -/
def placeAmong (l : List Element) (x : Element) : Nat :=
  (siblings l x).findIdx (fun y => y.samePlace x) + 1

/-- Whether a predicate holds of an element of a list, with places counted among those that have
its parent. -/
def Predicate.holdsIn (l : List Element) (p : Predicate) (x : Element) : Bool :=
  p.holdsAt (placeAmong l x) (siblings l x).length x

/-- Of elements at different places, each stands where it is found first, so that to take those that
are told by their places is to leave out the others. -/
theorem filterMap_zipIdx_eq_filter {l : List Element} (hnodup : (l.map Element.place).Nodup)
    (p : Predicate) (size start : Nat) :
    ((l.zipIdx start).filterMap fun x => if p.holdsAt x.2 size x.1 then some x.1 else none) =
      l.filter fun x => p.holdsAt (l.findIdx (fun y => y.samePlace x) + start) size x := by
  induction l generalizing start with
  | nil => rfl
  | cons e l ih =>
    rw [List.map_cons, List.nodup_cons] at hnodup
    have hfirst : (e :: l).findIdx (fun y => y.samePlace e) = 0 := by
      simp [List.findIdx_cons, Element.samePlace]
    have hrest : ∀ x ∈ l, (e :: l).findIdx (fun y => y.samePlace x) =
        l.findIdx (fun y => y.samePlace x) + 1 := fun x hx => by
      have hne : (e.place == x.place) = false :=
        beq_eq_false_iff_ne.mpr fun heq => hnodup.1 (heq ▸ List.mem_map_of_mem hx)
      simp [List.findIdx_cons, Element.samePlace, hne]
    have htail :
        (l.filter fun x => p.holdsAt ((e :: l).findIdx (fun y => y.samePlace x) + start) size x) =
          l.filter fun x => p.holdsAt (l.findIdx (fun y => y.samePlace x) + (start + 1)) size x :=
      List.filter_congr fun x hx => by rw [hrest x hx, Nat.add_right_comm, Nat.add_assoc]
    rw [List.zipIdx_cons, List.filterMap_cons, List.filter_cons, ih hnodup.2, htail, hfirst,
      Nat.zero_add]
    cases p.holdsAt start size e <;> rfl

/-- What is selected of elements at different places. -/
theorem selected_eq_filter {l : List Element} (hnodup : (l.map Element.place).Nodup)
    (p : Predicate) :
    p.selected l =
      l.filter fun x => p.holdsAt (l.findIdx (fun y => y.samePlace x) + 1) l.length x :=
  filterMap_zipIdx_eq_filter hnodup p l.length 1

theorem keep_and (hp : p ≠ .position 0) (step : Step) (group : List Element) :
    (step.and p).keep group = p.selected (step.keep group) := by
  rw [Step.keep, Step.and, List.foldl_concat, ← Step.keep, Predicate.keep_eq_selected hp]

/-- The groups of the last step, and what the query selects of them. -/
theorem exists_select_eq (hcontext : OnPage tag nodes context) (path : Path) (axis : Axis)
    (test : Test) (htest : test.TakesElements) : ∃ blocks, Blocks blocks ∧
      (∀ g ∈ blocks, ∀ x ∈ g, ∀ y ∈ g, x.parentPlace? = y.parentPlace?) ∧
      (∀ g ∈ blocks, (g.map Element.place).Nodup) ∧ ∀ predicates,
        (Query.mk [path.ending ⟨axis, test, predicates⟩]).select context =
          (blocks.flatMap (Step.keep ⟨axis, test, predicates⟩)).map .element := by
  have hseparate := separate_groups hcontext (settled_evaluate hcontext path) ⟨axis, test, []⟩
  obtain ⟨blocks, hmem, hblocks, hdistinct⟩ := exists_blocks hseparate
  refine ⟨blocks, hblocks, fun g hg => hseparate.together g ((hmem g).mp hg),
    fun g hg => hseparate.places g ((hmem g).mp hg), fun predicates => ?_⟩
  have hkeep := hdistinct _ (Step.keep_sublist ⟨axis, test, predicates⟩)
  have hfrom : (path.evaluate context).flatMap (Step.fromItem ⟨axis, test, predicates⟩) =
      (((path.evaluate context).flatMap (Item.groups ⟨axis, test, []⟩)).flatMap
        (Step.keep ⟨axis, test, predicates⟩)).map .element := by
    rw [List.flatMap_assoc, List.map_flatMap]
    exact List.flatMap_congr fun i _ => fromItem_eq htest i
  have hevaluate := evaluate_ending path ⟨axis, test, predicates⟩ context
  rw [Step.apply_eq, hfrom, hkeep] at hevaluate
  rw [select_eq_evaluate, hevaluate]
  rw [hevaluate, List.pairwise_map]
  refine List.Pairwise.imp ?_ (List.pairwise_map.mp (nodup_of_distinct_eq hkeep))
  exact fun hne _ heq => hne (Option.some.inj heq)

/-- **After a test of names**, one more predicate restricts what is selected to that of which it
holds. -/
theorem select_ending_and (hcontext : OnPage tag nodes context) (hstep : step.test.TakesElements)
    (hp : p ≠ .position 0) : ∃ l : List Element,
      (Query.mk [path.ending step]).select context = l.map .element ∧
        (Query.mk [path.ending (step.and p)]).select context =
          (l.filter (p.holdsIn l)).map .element := by
  obtain ⟨blocks, hblocks, htogether, hplaces, hselect⟩ :=
    exists_select_eq hcontext path step.axis step.test hstep
  have hkeep := step.keep_sublist
  refine ⟨blocks.flatMap step.keep, hselect step.predicates, ?_⟩
  refine (hselect (step.predicates ++ [p])).trans (congrArg _ ?_)
  rw [List.filter_flatMap]
  refine List.flatMap_congr fun g hg => (keep_and hp step g).trans ?_
  rw [selected_eq_filter (List.Nodup.sublist ((hkeep g).map _) (hplaces g hg))]
  refine List.filter_congr fun x hx => ?_
  rw [Predicate.holdsIn, placeAmong, siblings_flatMap hblocks htogether hkeep hg hx]

/-! ### After texts and attributes -/

/-- What an operand stands for in a text or in the value of an attribute, read in some way: there
are no attributes and no texts below it. -/
def Operand.readIn? (read : String → String) (l : Leaf) : Operand → Option String
  | .value => some (read l.value)
  | .attr _ | .ownText => none

/-- The place of a leaf, counted from one: of a text among the texts of its parent. -/
def Leaf.place : Leaf → Nat
  | .text t   => t.parent.ownTextNodes.findIdx (fun u => u.index == t.index) + 1
  | .attr ..  => 1

/-- The number of leaves among which a leaf has its place. -/
def Leaf.count : Leaf → Nat
  | .text t  => t.parent.ownTextNodes.length
  | .attr .. => 1

/-- Whether a predicate holds of a leaf. -/
def Predicate.holdsOf (read : String → String) (p : Predicate) (l : Leaf) : Bool :=
  match p with
  | .position n      => l.place == n
  | .last            => l.place == l.count
  | .hasAttr _       => false
  | .equals op s     => op.readIn? read l == some s
  | .contains op s   => (op.readIn? read l).any fun v => Text.contains s.toList v.toList
  | .startsWith op s => (op.readIn? read l).any fun v => Text.startsWith s.toList v.toList

/-- **After texts and attributes**, the query selects the strings of all leaves. -/
theorem select_ending_of_isLeafTest (hstep : step.test.IsLeafTest) :
    (Query.mk [path.ending step]).select context =
      (path.sources step.axis step.test context).map fun l => .text l.value := by
  obtain ⟨axis, test, predicates⟩ := step
  have hfrom (i : Item) :
      Step.fromItem ⟨axis, test, predicates⟩ i = Step.fromItem ⟨axis, test, []⟩ i := by
    obtain rfl | ⟨n, rfl⟩ := Test.IsLeafTest.eq_text_or_attr hstep
    · cases i <;> rfl
    · cases i <;> rfl
  have hevaluate : (path.ending ⟨axis, test, predicates⟩).evaluate context =
      (path.then axis test).evaluate context := by
    change _ = (path.ending ⟨axis, test, []⟩).evaluate context
    rw [evaluate_ending, evaluate_ending, Step.apply_eq, Step.apply_eq, funext hfrom]
  rw [← select_then hstep, Query.select, Query.select, List.flatMap_singleton,
    List.flatMap_singleton, hevaluate]

/-! ### Predicates that are honoured -/

/-- One more predicate restricts the elements that the query selects. -/
def Path.RestrictsElements (path : Path) (step : Step) (p : Predicate) (context : Element) : Prop :=
  ∃ l : List Element, (Query.mk [path.ending step]).select context = l.map .element ∧
    (Query.mk [path.ending (step.and p)]).select context = (l.filter (p.holdsIn l)).map .element

/-- One more predicate restricts the leaves whose strings the query selects. -/
def Path.RestrictsLeaves (path : Path) (step : Step) (p : Predicate) (read : String → String)
    (context : Element) : Prop :=
  (Query.mk [path.ending (step.and p)]).select context =
    ((path.sources step.axis step.test context).filter (p.holdsOf read)).map fun l => .text l.value

/-- With one more predicate on its last step the query selects what it selects without it,
restricted to the nodes of which the predicate holds. -/
def Path.Honours (path : Path) (step : Step) (p : Predicate) (read : String → String)
    (context : Element) : Prop :=
  match step.test with
  | .text | .attr _ => path.RestrictsLeaves step p read context
  | _               => path.RestrictsElements step p context

variable {read : String → String}

theorem honours_iff_restrictsElements (h : step.test.TakesElements) :
    path.Honours step p read context ↔ path.RestrictsElements step p context := by
  obtain ⟨axis, test, predicates⟩ := step
  cases test with
  | name n => exact Iff.rfl
  | any => exact Iff.rfl
  | self => exact absurd h id
  | parent => exact absurd h id
  | text => exact absurd h id
  | attr n => exact absurd h id

theorem honours_iff_restrictsLeaves (h : step.test.IsLeafTest) :
    path.Honours step p read context ↔ path.RestrictsLeaves step p read context := by
  obtain ⟨axis, test, predicates⟩ := step
  obtain rfl | ⟨n, rfl⟩ := Test.IsLeafTest.eq_text_or_attr h
  · exact Iff.rfl
  · exact Iff.rfl

/-- The strings of all leaves are those of the leaves of which a predicate holds, if it holds of
all. -/
theorem restrictsLeaves_iff (h : step.test.IsLeafTest) :
    path.RestrictsLeaves step p read context ↔
      ∀ l ∈ path.sources step.axis step.test context, p.holdsOf read l = true := by
  have hselect : (Query.mk [path.ending (step.and p)]).select context =
      (path.sources step.axis step.test context).map fun l => .text l.value :=
    select_ending_of_isLeafTest h
  rw [Path.RestrictsLeaves, hselect]
  constructor
  · intro heq
    have hlength := congrArg List.length heq
    rw [List.length_map, List.length_map] at hlength
    exact List.length_filter_eq_length_iff.mp hlength.symm
  · intro hall
    rw [List.filter_eq_self.mpr hall]

/-- **A predicate of the last step is honoured** exactly if the step takes elements by their names,
or the predicate holds of every leaf that the step takes. -/
theorem honours_iff (hcontext : OnPage tag nodes context)
    (htest : step.test.TakesElements ∨ step.test.IsLeafTest) (hp : p ≠ .position 0)
    (read : String → String) :
    path.Honours step p read context ↔ (step.test.IsLeafTest →
      ∀ l ∈ path.sources step.axis step.test context, p.holdsOf read l = true) := by
  rcases htest with htest | htest
  · have hnot : ¬ step.test.IsLeafTest := fun hleaf => by
      obtain h | ⟨n, h⟩ := hleaf.eq_text_or_attr <;> rw [h] at htest <;> exact htest
    rw [honours_iff_restrictsElements htest]
    exact iff_of_true (select_ending_and hcontext htest hp) fun hleaf => absurd hleaf hnot
  · rw [honours_iff_restrictsLeaves htest, restrictsLeaves_iff htest]
    exact ⟨fun h _ => h, fun h => h htest⟩

/-- All items, as the last step of `//li`. -/
def itemStep : Step := ⟨.descendant, .name "li", []⟩

/-- Of the items of the outline, `[last()]` leaves the last of each list. -/
theorem honours_lastItems :
    (Path.mk true []).Honours itemStep .last id outline ∧
      ((Query.mk [(Path.mk true []).ending (itemStep.and .last)]).select outline).map Item.place? =
        [some [1], some [1, 0, 0]] := by
  have hpage : OnPage outline.tag outline.nodes outline := .refl
  have htest : itemStep.test.TakesElements := trivial
  have hlast : Predicate.last ≠ .position 0 := by decide
  exact ⟨(honours_iff hpage (.inl htest) hlast id).mpr fun hleaf => absurd hleaf id, by decide⟩

/-- A paragraph with two texts. -/
def twoTexts : Element :=
  .top ⟨.html, "p", []⟩ [.text "a", .element ⟨.html, "b", []⟩ [.text "c"], .text "d"]

/-- The path `//p`. -/
def paragraphs : Path := ⟨true, [⟨.descendant, .name "p", []⟩]⟩

/-- Of `//p/text()[1]` both texts are selected, as of `//p/text()`, though the second is not at the
first place, however texts are read. -/
theorem first_text_not_honoured :
    Query.parse "//p/text()[1]".toList =
        .ok ⟨[paragraphs.ending (Step.and ⟨.child, .text, []⟩ (.position 1))]⟩ ∧
      (Query.mk [paragraphs.ending (Step.and ⟨.child, .text, []⟩ (.position 1))]).select twoTexts =
        [.text "a", .text "d"] ∧
      ∀ read, ¬ paragraphs.Honours ⟨.child, .text, []⟩ (.position 1) read twoTexts := by
  refine ⟨by rfl, by rfl, fun read h => ?_⟩
  have hlength : [Item.text "a", .text "d"].length = [Item.text "a"].length :=
    congrArg List.length h
  cases hlength

end Scrape.XPath
