import Mathlib.Data.List.Pairwise
import Scrape.Proofs.Html.TextNode
import Scrape.Proofs.XPath.Located

/-!
# XPath — Leaf, texts and attributes at the end of a path

A path that ends in `text()` or in an attribute gives strings.  Each comes from a text node or from
an attribute of an element (`Leaf`), and `Path.sources` is the list of those, in the order in which
a query collects them from one node after the other that the path before the last step comes to.
The reference meaning is a set: with `/` the leaves of those nodes themselves, and with `//` those
of all that is reached from them by going down, any number of times (`Path.leaves`).

A query differs from it in two ways.  It takes no leaf away that it has collected from another node,
and with `//` it passes over the attributes of the node itself (`Visits`).

Main statement (`exact_iff`): the sources are the leaves that the path denotes, each once, exactly
when each of these leaves is visited from one and only one node.
-/

namespace Scrape.XPath

open Relation (TransGen)
open Scrape.Html (Element Tag TextNode)
open Scrape.Html.Element (OnPage)

/-! ### Leaves -/

/-- What a string of a path comes from: a text, or an attribute of an element. -/
inductive Leaf where
  | text (t : TextNode)
  | attr (owner : Element) (name value : String)

/-- The element that a leaf belongs to. -/
def Leaf.parent : Leaf → Element
  | text t     => t.parent
  | attr o _ _ => o

/-- The string of a leaf. -/
def Leaf.value : Leaf → String
  | text t     => t.text
  | attr _ _ v => v

/-- A test takes texts, or the values of an attribute. -/
def Test.IsLeafTest : Test → Prop
  | text   => True
  | attr _ => True
  | _      => False

theorem Test.IsLeafTest.eq_text_or_attr {test : Test} (h : test.IsLeafTest) :
    test = .text ∨ ∃ n, test = .attr n := by
  cases test with
  | text => exact .inl rfl
  | attr n => exact .inr ⟨n, rfl⟩
  | name n => exact absurd h id
  | any => exact absurd h id
  | self => exact absurd h id
  | parent => exact absurd h id

/-- The leaves of elements that a test takes. -/
inductive Test.Takes : Test → Leaf → Prop where
  | text {t : TextNode} (h : t.Stands) : Takes .text (.text t)
  | attr {o : Element} {n v : String} (h : o.attr? n = some v) : Takes (.attr n) (.attr o n v)

/-- A path with one more step, without predicates. -/
def Path.then (path : Path) (axis : Axis) (test : Test) : Path :=
  ⟨path.absolute, path.steps ++ [⟨axis, test, []⟩]⟩

/-! ### What a path denotes -/

/-- The nodes whose leaves a last step takes from a node: its own, or with `//` those of all that is
reached by going down. -/
def Axis.Reaches (context : Element) : Axis → Spot → Spot → Prop
  | child      => Eq
  | descendant => Spot.Reaches context

/-- The leaves that a path denotes with one more step to texts or attributes. -/
def Path.leaves (path : Path) (axis : Axis) (test : Test) (context : Element) : Set Leaf :=
  { l | test.Takes l ∧ ∃ a ∈ path.nodes context, axis.Reaches context a (.element l.parent) }

/-! ### What a query collects -/

/-- The text nodes that a step comes to. -/
def reachedTextNodes (above : Bool) (axis : Axis) (e : Element) : List TextNode :=
  match axis with
  | .child      => if above then [] else e.ownTextNodes
  | .descendant => e.textNodes

/-- The attribute of an element as a leaf. -/
def attrLeaf? (n : String) (o : Element) : Option Leaf := (o.attr? n).map (.attr o n)

/-- The leaves that a step collects from an element, or from above it. -/
def collected (above : Bool) (axis : Axis) (test : Test) (e : Element) : List Leaf :=
  match test with
  | .text   => (reachedTextNodes above axis e).map .text
  | .attr n => (owners above axis e).filterMap (attrLeaf? n)
  | _       => []

/-- The leaves that a step collects from an item. -/
def Item.leaves (axis : Axis) (test : Test) : Item → List Leaf
  | root e    => collected true axis test e
  | element e => collected false axis test e
  | text _    => []

/-- The leaves that a query collects with a last step, in its order. -/
def Path.sources (path : Path) (axis : Axis) (test : Test) (context : Element) : List Leaf :=
  (path.evaluate context).flatMap (Item.leaves axis test)

variable {axis : Axis} {test : Test} {context : Element} {path : Path}

theorem map_reachedTextNodes (above : Bool) (axis : Axis) (e : Element) :
    (reachedTextNodes above axis e).map TextNode.text = reachedTexts above axis e := by
  cases axis with
  | child =>
    cases above with
    | true => rfl
    | false => exact Element.map_ownTextNodes e
  | descendant => exact Element.map_textNodes e

theorem from_eq_map_collected (htest : test.IsLeafTest) (above : Bool) (e : Element) :
    Step.from ⟨axis, test, []⟩ above e =
      (collected above axis test e).map fun l => .text l.value := by
  obtain rfl | ⟨n, rfl⟩ := htest.eq_text_or_attr
  · change (reachedTexts above axis e).map Item.text = _
    rw [← map_reachedTextNodes, collected, List.map_map, List.map_map]
    rfl
  · change ((owners above axis e).filterMap fun o => o.attr? n).map Item.text = _
    rw [collected, List.map_filterMap, List.map_filterMap]
    refine List.filterMap_congr fun o _ => ?_
    rw [attrLeaf?, Option.map_map]
    rfl

theorem fromItem_eq_map_leaves (htest : test.IsLeafTest) (i : Item) :
    Step.fromItem ⟨axis, test, []⟩ i = (i.leaves axis test).map fun l => .text l.value := by
  cases i with
  | root e => exact from_eq_map_collected htest true e
  | element e => exact from_eq_map_collected htest false e
  | text s => rfl

theorem distinct_map_text (l : List Leaf) :
    distinct (l.map fun l => Item.text l.value) = l.map fun l => .text l.value := by
  have h : (l.map fun l => Item.text l.value).foldl keepFirst [] =
      (l.map fun l => .text l.value).reverse := by
    induction l using List.reverseRecOn with
    | nil => rfl
    | append_singleton l a ih =>
      rw [List.map_append, List.foldl_append, ih, List.reverse_append]
      rfl
  rw [distinct_eq, h, List.reverse_reverse]

/-- **A query selects the strings of its sources.** -/
theorem select_then (htest : test.IsLeafTest) :
    (Query.mk [path.then axis test]).select context =
      (path.sources axis test context).map fun l => .text l.value := by
  have hevaluate : (path.then axis test).evaluate context =
      (path.sources axis test context).map fun l => .text l.value := by
    rw [Path.evaluate, Path.then, List.foldl_concat, Step.apply_eq, Path.sources,
      ← distinct_map_text, List.map_flatMap]
    refine congrArg distinct (List.flatMap_congr fun i _ => ?_)
    exact fromItem_eq_map_leaves htest i
  rw [select_eq_evaluate, hevaluate]
  -- a text is at no place, so none is taken for another
  rw [hevaluate, List.pairwise_map]
  exact List.pairwise_of_forall fun _ _ hsome => absurd hsome (by simp [Item.place?])

/-! ### What is visited from one node -/

/-- A query visits the leaf from the node: it is among those that the last step takes from there,
and with `//` it is no attribute of the node itself. -/
def Visits (context : Element) (axis : Axis) (test : Test) (a : Spot) (l : Leaf) : Prop :=
  axis.Reaches context a (.element l.parent) ∧
    (axis = .descendant → test ≠ .text → a ≠ .element l.parent)

variable {a : Spot} {l : Leaf}

theorem Spot.mem_reached_iff_ne {x : Element} :
    x ∈ a.reached context .descendant ↔ a.Reaches context (.element x) ∧ a ≠ .element x := by
  rw [Spot.mem_reached_iff]
  constructor
  · rintro ⟨n, hn, hx⟩
    refine ⟨hn.tail ⟨x, hx, rfl⟩, ?_⟩
    -- what is below an element has a longer place, so it is not the element
    rintro rfl
    obtain ⟨m, rfl, hm⟩ := reaches_element_iff.mp hn
    exact Nat.lt_irrefl _ (Element.length_place_lt (TransGen.tail' hm hx))
  · rintro ⟨h, hne⟩
    rcases h.cases_tail with heq | ⟨n, hn, y, hy, heq⟩
    · exact absurd heq.symm hne
    · cases heq
      exact ⟨n, hn, hy⟩

/-- The text nodes that a step comes to from a node. -/
def Spot.textNodes (context : Element) (axis : Axis) : Spot → List TextNode
  | document  => reachedTextNodes true axis context
  | element e => reachedTextNodes false axis e

theorem Spot.mem_textNodes_iff {t : TextNode} :
    t ∈ a.textNodes context axis ↔ t.Stands ∧ axis.Reaches context a (.element t.parent) := by
  cases axis with
  | child =>
    cases a with
    | document => simp [Spot.textNodes, reachedTextNodes, Axis.Reaches]
    | element e =>
      simp [Spot.textNodes, reachedTextNodes, Axis.Reaches, Element.mem_ownTextNodes_iff, eq_comm]
  | descendant =>
    have hbelow (e : Element) : t ∈ e.textNodes ↔
        t.Stands ∧ Spot.Reaches context (.element e) (.element t.parent) := by
      rw [Element.mem_textNodes_iff, Spot.reaches_element_iff]
      simp
    cases a with
    | document =>
      simp [Spot.textNodes, reachedTextNodes, Axis.Reaches, hbelow, Spot.reaches_document_iff]
    | element e => simp [Spot.textNodes, reachedTextNodes, Axis.Reaches, hbelow]

theorem Spot.nodup_textNodes : (a.textNodes context axis).Nodup := by
  cases axis with
  | child =>
    cases a with
    | document => exact .nil
    | element e => exact Element.nodup_ownTextNodes e
  | descendant =>
    cases a with
    | document => exact Element.nodup_textNodes context
    | element e => exact Element.nodup_textNodes e

theorem leaves_text :
    (a.item context).leaves axis .text = (a.textNodes context axis).map .text := by
  cases a <;> rfl

/-- The elements whose attribute a step takes from a node. -/
def Spot.owners (context : Element) (axis : Axis) : Spot → List Element
  | document  => XPath.owners true axis context
  | element e => XPath.owners false axis e

theorem Spot.mem_owners_iff {o : Element} :
    o ∈ a.owners context axis ↔
      axis.Reaches context a (.element o) ∧ (axis = .descendant → a ≠ .element o) := by
  cases axis with
  | child => cases a <;> simp [Spot.owners, XPath.owners, Axis.Reaches, eq_comm]
  | descendant =>
    have howners : a.owners context .descendant = a.reached context .descendant := by
      cases a <;> rfl
    rw [howners, Spot.mem_reached_iff_ne]
    simp [Axis.Reaches]

theorem Spot.nodup_owners : (a.owners context axis).Nodup := by
  cases axis with
  | child => cases a <;> simp [Spot.owners, XPath.owners]
  | descendant =>
    cases a with
    | document => exact Element.nodup_cons_descendants context
    | element e => exact Element.nodup_descendants e

theorem leaves_attr (n : String) :
    (a.item context).leaves axis (.attr n) = (a.owners context axis).filterMap (attrLeaf? n) := by
  cases a <;> rfl

theorem mem_attrLeaf?_iff {n : String} {o : Element} :
    l ∈ attrLeaf? n o ↔ ∃ v, o.attr? n = some v ∧ l = .attr o n v := by
  simp [attrLeaf?, eq_comm]

/-- **From a node** a query collects the leaves that it visits from there. -/
theorem mem_leaves_iff (htest : test.IsLeafTest) :
    l ∈ (a.item context).leaves axis test ↔ test.Takes l ∧ Visits context axis test a l := by
  obtain rfl | ⟨n, rfl⟩ := htest.eq_text_or_attr
  · rw [leaves_text, List.mem_map]
    constructor
    · rintro ⟨t, ht, rfl⟩
      obtain ⟨hstands, hreaches⟩ := Spot.mem_textNodes_iff.mp ht
      exact ⟨.text hstands, hreaches, fun _ htext => absurd rfl htext⟩
    · rintro ⟨htakes, hreaches, -⟩
      cases htakes with
      | text hstands => exact ⟨_, Spot.mem_textNodes_iff.mpr ⟨hstands, hreaches⟩, rfl⟩
  · rw [leaves_attr, List.mem_filterMap]
    constructor
    · rintro ⟨o, ho, hl⟩
      obtain ⟨v, hv, rfl⟩ := mem_attrLeaf?_iff.mp hl
      obtain ⟨hreaches, hne⟩ := Spot.mem_owners_iff.mp ho
      exact ⟨.attr hv, hreaches, fun hdescendant _ => hne hdescendant⟩
    · rintro ⟨htakes, hreaches, hne⟩
      cases htakes with
      | attr hv =>
        exact ⟨_, Spot.mem_owners_iff.mpr ⟨hreaches, fun h => hne h (by simp)⟩,
          mem_attrLeaf?_iff.mpr ⟨_, hv, rfl⟩⟩

theorem nodup_leaves (htest : test.IsLeafTest) : ((a.item context).leaves axis test).Nodup := by
  obtain rfl | ⟨n, rfl⟩ := htest.eq_text_or_attr
  · rw [leaves_text]
    exact Spot.nodup_textNodes.map fun _ _ => Leaf.text.inj
  · rw [leaves_attr]
    refine Spot.nodup_owners.filterMap fun o o' l hl hl' => ?_
    obtain ⟨v, -, rfl⟩ := mem_attrLeaf?_iff.mp hl
    obtain ⟨v', -, heq⟩ := mem_attrLeaf?_iff.mp hl'
    exact (Leaf.attr.inj heq).1

/-! ### Each leaf once -/

/-- A query with a last step to texts or attributes selects the strings of the leaves that the path
denotes, and each of them comes in once. -/
structure Path.Exact (path : Path) (axis : Axis) (test : Test) (context : Element) : Prop where
  strings : (Query.mk [path.then axis test]).select context =
    (path.sources axis test context).map fun l => .text l.value
  once : (path.sources axis test context).Nodup
  leaves : ∀ l, l ∈ path.sources axis test context ↔ l ∈ path.leaves axis test context

variable {tag : Tag} {nodes : List Html.Node}

/-- The sources, collected from each of the nodes that the path comes to. -/
theorem exists_sources_eq (hcontext : OnPage tag nodes context) (hpath : path.IsElementPath)
    (axis : Axis) (test : Test) :
    ∃ found : List Spot, found.Nodup ∧ (∀ a, a ∈ found ↔ a ∈ path.nodes context) ∧
      path.sources axis test context =
        found.flatMap fun a => (a.item context).leaves axis test := by
  obtain ⟨found, hfound, -, hnodup, hspots⟩ := lists_evaluate hcontext hpath
  rw [hfound, List.map_map] at hnodup
  refine ⟨found, hnodup.of_map, fun a => (hspots a).symm, ?_⟩
  rw [Path.sources, hfound, List.flatMap_map]

theorem mem_sources_iff (hcontext : OnPage tag nodes context) (hpath : path.IsElementPath)
    (htest : test.IsLeafTest) :
    l ∈ path.sources axis test context ↔
      test.Takes l ∧ ∃ a ∈ path.nodes context, Visits context axis test a l := by
  obtain ⟨found, -, hspots, hsources⟩ := exists_sources_eq hcontext hpath axis test
  rw [hsources, List.mem_flatMap]
  simp only [mem_leaves_iff htest, hspots]
  constructor
  · rintro ⟨a, ha, htakes, hvisits⟩
    exact ⟨htakes, a, ha, hvisits⟩
  · rintro ⟨htakes, a, ha, hvisits⟩
    exact ⟨a, ha, htakes, hvisits⟩

theorem nodup_sources_iff (hcontext : OnPage tag nodes context) (hpath : path.IsElementPath)
    (htest : test.IsLeafTest) :
    (path.sources axis test context).Nodup ↔
      ∀ l, test.Takes l → ∀ a ∈ path.nodes context, ∀ b ∈ path.nodes context,
        Visits context axis test a l → Visits context axis test b l → a = b := by
  obtain ⟨found, hnodup, hspots, hsources⟩ := exists_sources_eq hcontext hpath axis test
  rw [hsources, List.nodup_flatMap]
  simp only [← hspots]
  constructor
  · -- a leaf that is collected from two nodes comes twice
    rintro ⟨-, hdisjoint⟩ l htakes a ha b hb hvisits hvisits'
    by_contra hne
    have : Std.Symm (Function.onFun List.Disjoint fun a : Spot =>
        (a.item context).leaves axis test) := ⟨fun _ _ h => List.disjoint_symm h⟩
    exact hdisjoint.forall ha hb hne ((mem_leaves_iff htest).mpr ⟨htakes, hvisits⟩)
      ((mem_leaves_iff htest).mpr ⟨htakes, hvisits'⟩)
  · intro h
    refine ⟨fun a _ => nodup_leaves htest, hnodup.imp_of_mem ?_⟩
    intro a b ha hb hne l hl hl'
    obtain ⟨htakes, hvisits⟩ := (mem_leaves_iff htest).mp hl
    exact hne (h l htakes a ha b hb hvisits ((mem_leaves_iff htest).mp hl').2)

theorem exact_of_once (hcontext : OnPage tag nodes context) (hpath : path.IsElementPath)
    (htest : test.IsLeafTest) (h : ∀ l ∈ path.leaves axis test context,
      ∃! a, a ∈ path.nodes context ∧ Visits context axis test a l) :
    path.Exact axis test context := by
  refine ⟨select_then htest, (nodup_sources_iff hcontext hpath htest).mpr ?_, fun l => ?_⟩
  · intro l htakes a ha b hb hvisits hvisits'
    exact (h l ⟨htakes, a, ha, hvisits.1⟩).unique ⟨ha, hvisits⟩ ⟨hb, hvisits'⟩
  · rw [mem_sources_iff hcontext hpath htest]
    constructor
    · rintro ⟨htakes, a, ha, hvisits⟩
      exact ⟨htakes, a, ha, hvisits.1⟩
    · intro hl
      obtain ⟨a, ha, -⟩ := h l hl
      exact ⟨hl.1, a, ha⟩

/-- **The strings of a last step** are those of the leaves that the path denotes, each once, exactly
when every such leaf is visited from one node only. -/
theorem exact_iff (hcontext : OnPage tag nodes context) (hpath : path.IsElementPath)
    (htest : test.IsLeafTest) :
    path.Exact axis test context ↔ ∀ l ∈ path.leaves axis test context,
      ∃! a, a ∈ path.nodes context ∧ Visits context axis test a l := by
  refine ⟨fun h l hl => ?_, exact_of_once hcontext hpath htest⟩
  obtain ⟨htakes, a, ha, hvisits⟩ :=
    (mem_sources_iff hcontext hpath htest).mp ((h.leaves l).mpr hl)
  refine ⟨a, ⟨ha, hvisits⟩, fun b hb => ?_⟩
  exact (nodup_sources_iff hcontext hpath htest).mp h.once l htakes b hb.1 a ha hb.2 hvisits

/-! ### One element in another -/

/-- An element with an attribute and a text, in an element with an attribute and a text. -/
def outerElement : Element :=
  .top ⟨.html, "div", [⟨.plain, "id", "a"⟩]⟩
    [.text "x", .element ⟨.html, "div", [⟨.plain, "id", "b"⟩]⟩ [.text "y"]]

/-- The inner one. -/
def innerElement : Element :=
  .child outerElement 1 ⟨.html, "div", [⟨.plain, "id", "b"⟩]⟩ [.text "y"]

/-- The path `//div`. -/
def allDivs : Path := ⟨true, [⟨.descendant, .name "div", []⟩]⟩

theorem outer_mem_allDivs : .element outerElement ∈ allDivs.nodes outerElement :=
  ⟨.document, rfl, .descendant .refl (List.mem_singleton_self outerElement)⟩

theorem inner_mem_allDivs : .element innerElement ∈ allDivs.nodes outerElement :=
  ⟨.document, rfl, .descendant (.single ⟨outerElement, List.mem_singleton_self outerElement, rfl⟩)
    (List.mem_singleton_self innerElement)⟩

theorem inner_reached : Spot.Reaches outerElement (.element outerElement) (.element innerElement) :=
  .single ⟨innerElement, List.mem_singleton_self innerElement, rfl⟩

/-- After `//div//text()` the text of the inner element comes twice. -/
theorem not_exact_texts : ¬ allDivs.Exact .descendant .text outerElement := by
  intro h
  have hpage : OnPage outerElement.tag outerElement.nodes outerElement := .refl
  have hpath : allDivs.IsElementPath :=
    ⟨by simp [allDivs, Step.IsElementStep, Step.CountsFromOne], by simp [allDivs]⟩
  have htest : Test.IsLeafTest .text := trivial
  have htext : .text ⟨innerElement, 0, "y"⟩ ∈ allDivs.leaves .descendant .text outerElement :=
    ⟨.text rfl, _, inner_mem_allDivs, .refl⟩
  have hone := (exact_iff hpage hpath htest).mp h _ htext
  have heq := hone.unique ⟨outer_mem_allDivs, inner_reached, fun _ hne => absurd rfl hne⟩
    ⟨inner_mem_allDivs, .refl, fun _ hne => absurd rfl hne⟩
  cases heq

/-- After `//div//@id` the attribute of the outer element is missing. -/
theorem ids_miss_outer :
    ¬ ∃ leaves : List Leaf, leaves.Nodup ∧
      (∀ l, l ∈ leaves ↔ l ∈ allDivs.leaves .descendant (.attr "id") outerElement) ∧
        (Query.mk [allDivs.then .descendant (.attr "id")]).select outerElement =
          leaves.map fun l => .text l.value := by
  rintro ⟨leaves, -, hleaves, hselect⟩
  have houter : .attr outerElement "id" "a" ∈ leaves :=
    (hleaves _).mpr ⟨.attr rfl, _, outer_mem_allDivs, .refl⟩
  have hselected : (Query.mk [allDivs.then .descendant (.attr "id")]).select outerElement =
      [.text "b"] := rfl
  have hmem : .text "a" ∈ leaves.map fun l => Item.text l.value :=
    List.mem_map.mpr ⟨_, houter, rfl⟩
  rw [← hselect, hselected, List.mem_singleton] at hmem
  exact absurd (Item.text.inj hmem) (by decide)

/-! ### After one slash -/

/-- **A last step after one slash** gives the strings of the leaves that the path denotes. -/
theorem exact_child (hcontext : OnPage tag nodes context) (hpath : path.IsElementPath)
    (htest : test.IsLeafTest) : path.Exact .child test context := by
  refine exact_of_once hcontext hpath htest ?_
  rintro l ⟨-, a, ha, hreaches⟩
  exact ⟨a, ⟨ha, hreaches, nofun⟩, fun b hb => hb.2.1.trans hreaches.symm⟩

end Scrape.XPath
