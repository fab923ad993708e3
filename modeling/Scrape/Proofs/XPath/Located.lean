import Mathlib.Data.Set.Insert
import Mathlib.Data.Set.List
import Scrape.Proofs.XPath.Step

/-!
# XPath — Path, what it finds

A path is taken step by step from lists of items, and what it means is taken step by step from sets
of nodes.  The items *list* a set of nodes (`Lists`) if they stand for its nodes, all of one page,
and no two are at one place.  A step keeps this (`lists_apply`): what it gives from several items
may come more than once, but on a page an element is known by its place.

Main statement (`select_path`): a query of one path to elements selects what the path means, each
node once.
-/

namespace Scrape.XPath

open Relation (ReflTransGen)
open Scrape.Html (Element Tag)
open Scrape.Html.Element (OnPage)

/-! ### Each place once -/

/-- The kept items, in reverse, with one more. -/
def keepFirst (kept : List Item) : Item → List Item
  | .element e => if kept.any (Item.isAt e) then kept else .element e :: kept
  | other      => other :: kept

theorem distinct_eq (items : List Item) :
    distinct items = (items.foldl keepFirst []).reverse := by
  have hstep : (fun (kept : List Item) (item : Item) => match item with
      | .element e => if kept.any (Item.isAt e) then kept else item :: kept
      | other      => other :: kept) = keepFirst := by
    funext kept item
    cases item <;> rfl
  rw [← hstep]
  rfl

theorem any_isAt_iff {found : List Element} {e : Element} :
    (found.map Item.element).any (Item.isAt e) = true ↔ ∃ x ∈ found, x.place = e.place := by
  simp [Item.isAt, Element.samePlace]

theorem exists_foldl_keepFirst (l : List Element) :
    ∃ found : List Element, (l.map Item.element).foldl keepFirst [] = found.map .element ∧
      (found.map Element.place).Nodup ∧ (∀ e ∈ found, e ∈ l) ∧
        ∀ e ∈ l, ∃ x ∈ found, x.place = e.place := by
  induction l using List.reverseRecOn with
  | nil => exact ⟨[], rfl, .nil, nofun, nofun⟩
  | append_singleton l e ih =>
    obtain ⟨found, hfound, hnodup, hsubset, hcover⟩ := ih
    rw [List.map_append, List.foldl_append, hfound, List.map_singleton, List.foldl_cons,
      List.foldl_nil, keepFirst]
    by_cases h : ∃ x ∈ found, x.place = e.place
    · -- the place is taken, and what takes it stands for the element
      rw [if_pos (any_isAt_iff.mpr h)]
      refine ⟨found, rfl, hnodup, fun x hx => List.mem_append_left _ (hsubset x hx), ?_⟩
      intro x hx
      rcases List.mem_append.mp hx with hx | hx
      · exact hcover x hx
      · obtain rfl := List.mem_singleton.mp hx
        exact h
    · rw [if_neg (mt any_isAt_iff.mp h)]
      refine ⟨e :: found, rfl, ?_, ?_, ?_⟩
      · rw [List.map_cons, List.nodup_cons, List.mem_map]
        exact ⟨h, hnodup⟩
      · intro x hx
        rcases List.mem_cons.mp hx with rfl | hx
        · exact List.mem_append_right _ (List.mem_singleton_self x)
        · exact List.mem_append_left _ (hsubset x hx)
      · intro x hx
        rcases List.mem_append.mp hx with hx | hx
        · obtain ⟨y, hy, hplace⟩ := hcover x hx
          exact ⟨y, List.mem_cons_of_mem e hy, hplace⟩
        · obtain rfl := List.mem_singleton.mp hx
          exact ⟨x, List.mem_cons_self, rfl⟩

variable {tag : Tag} {nodes : List Html.Node} {context : Element}

/-- **Elements of a page** with each kept where it comes first are the same elements, each once. -/
theorem exists_distinct {l : List Element} (hpage : ∀ e ∈ l, OnPage tag nodes e) :
    ∃ found : List Element, distinct (l.map .element) = found.map .element ∧
      (found.map Element.place).Nodup ∧ ∀ e, e ∈ found ↔ e ∈ l := by
  obtain ⟨found, hfound, hnodup, hsubset, hcover⟩ := exists_foldl_keepFirst l
  refine ⟨found.reverse, ?_, ?_, fun e => ?_⟩
  · rw [distinct_eq, hfound, List.map_reverse]
  · rw [List.map_reverse, List.nodup_reverse]
    exact hnodup
  · rw [List.mem_reverse]
    refine ⟨hsubset e, fun he => ?_⟩
    obtain ⟨x, hx, hplace⟩ := hcover e he
    exact (hpage x (hsubset x hx)).eq_of_place_eq (hpage e he) hplace ▸ hx

/-- A query of one path selects what the path leads to, if no place comes twice. -/
theorem select_eq_evaluate {path : Path}
    (h : (path.evaluate context).Pairwise fun a b => b.place?.isSome → a.place? ≠ b.place?) :
    (Query.mk [path]).select context = path.evaluate context := by
  have hfold (items : List Item)
      (hitems : items.Pairwise fun a b => b.place?.isSome → a.place? ≠ b.place?) :
      items.foldl (fun (kept : List Item) item =>
        if item.place?.isSome && kept.any fun k => k.place? == item.place? then kept
        else item :: kept) [] = items.reverse := by
    induction items using List.reverseRecOn with
    | nil => rfl
    | append_singleton items item ih =>
      obtain ⟨hbefore, -, hnew⟩ := List.pairwise_append.mp hitems
      rw [List.foldl_concat, ih hbefore, if_neg, List.reverse_concat]
      rw [Bool.and_eq_true, List.any_eq_true]
      rintro ⟨hsome, k, hk, hplace⟩
      exact hnew k (List.mem_reverse.mp hk) item (List.mem_singleton_self item) hsome
        (beq_iff_eq.mp hplace)
  rw [Query.select, List.flatMap_singleton, hfold _ h, List.reverse_reverse]

/-! ### Nodes of a page -/

/-- The node is on a page, or right above a context element on it. -/
def Spot.Within (tag : Tag) (nodes : List Html.Node) (context : Element) : Spot → Prop
  | document  => OnPage tag nodes context
  | element e => OnPage tag nodes e

namespace Spot.Within

variable {a b n : Spot} {x p : Element}

theorem children (h : a.Within tag nodes context) (hx : x ∈ a.children context) :
    OnPage tag nodes x := by
  cases a with
  | document =>
    obtain rfl := List.mem_singleton.mp hx
    exact h
  | element e => exact ReflTransGen.tail h hx

theorem parent (h : a.Within tag nodes context) (hp : a.parent? = some p) : OnPage tag nodes p := by
  cases a with
  | document => cases hp
  | element e => exact (OnPage.parent? h hp).1

theorem reaches (h : a.Within tag nodes context) (hn : a.Reaches context n) :
    n.Within tag nodes context := by
  induction hn with
  | refl => exact h
  | tail _ hn ih =>
    obtain ⟨x, hx, rfl⟩ := hn
    exact ih.children hx

theorem leads {step : Step} (h : a.Within tag nodes context) (hb : Leads context step a b) :
    b.Within tag nodes context := by
  cases hb with
  | self => exact h
  | parent hp => exact h.parent hp
  | child hx => exact h.children (List.mem_filter.mp (mem_of_mem_remaining hx)).1
  | descendant hn hx =>
    exact (h.reaches hn).children (List.mem_filter.mp (mem_of_mem_remaining hx)).1

end Spot.Within

/-! ### Steps and paths -/

/-- The items stand for the nodes of a set, on a page or right above a context element on it, and no
two are at one place. -/
def Lists (tag : Tag) (nodes : List Html.Node) (context : Element) (items : List Item)
    (spots : Set Spot) : Prop :=
  ∃ found : List Spot, items = found.map (Spot.item context) ∧
    (∀ a ∈ found, a.Within tag nodes context) ∧ (items.map Item.place?).Nodup ∧
      ∀ a, a ∈ spots ↔ a ∈ found

variable {items : List Item} {spots : Set Spot} {step : Step} {path : Path}

theorem document_notMem_image (h : step.test = .self → .document ∉ spots)
    (hstep : step.IsElementStep) : .document ∉ step.image context spots := by
  rintro ⟨a, ha, hleads⟩
  by_cases hself : step.test = .self
  · obtain ⟨axis, test, predicates⟩ := step
    obtain rfl : test = .self := hself
    obtain ⟨rfl, rfl⟩ : axis = .child ∧ predicates = [] := hstep
    obtain rfl := leads_self_iff.mp hleads
    exact h rfl ha
  · obtain ⟨x, hx⟩ := exists_eq_element_of_leads hself hleads
    cases hx

theorem mem_flatMap_fromItem_iff {found : List Spot} (hspots : ∀ a, a ∈ spots ↔ a ∈ found)
    (hstep : step.IsElementStep) {i : Item} :
    i ∈ (found.map (Spot.item context)).flatMap step.fromItem ↔
      ∃ b ∈ step.image context spots, i = b.item context := by
  simp only [List.mem_flatMap, List.mem_map]
  constructor
  · rintro ⟨_, ⟨a, ha, rfl⟩, hi⟩
    obtain ⟨b, hb, rfl⟩ := (mem_fromItem_iff hstep).mp hi
    exact ⟨b, ⟨a, (hspots a).mpr ha, hb⟩, rfl⟩
  · rintro ⟨b, ⟨a, ha, hb⟩, rfl⟩
    exact ⟨_, ⟨a, (hspots a).mp ha, rfl⟩, (mem_fromItem_iff hstep).mpr ⟨b, hb, rfl⟩⟩

/-- Items that stand for nodes are elements, unless one stands above the context element. -/
theorem exists_eq_map_element (hmem : ∀ i, i ∈ items ↔ ∃ b ∈ spots, i = b.item context)
    (hnone : .document ∉ spots) :
    ∃ l : List Element, items = l.map .element ∧ ∀ x, x ∈ l ↔ .element x ∈ spots := by
  have helement : ∀ i ∈ items, i ∈ Set.range Item.element := by
    intro i hi
    obtain ⟨b, hb, rfl⟩ := (hmem i).mp hi
    cases b with
    | document => exact absurd hb hnone
    | element x => exact ⟨x, rfl⟩
  obtain ⟨l, rfl⟩ := (Set.range_list_map Item.element).ge helement
  refine ⟨l, rfl, fun x => ?_⟩
  have hiff := hmem (.element x)
  rw [List.mem_map] at hiff
  constructor
  · intro hx
    obtain ⟨b, hb, hitem⟩ := hiff.mp ⟨x, hx, rfl⟩
    cases b with
    | document => cases hitem
    | element y =>
      cases hitem
      exact hb
  · intro hx
    obtain ⟨y, hy, hitem⟩ := hiff.mpr ⟨_, hx, rfl⟩
    cases hitem
    exact hy

theorem lists_map_element {l : List Element} (hpage : ∀ x ∈ l, OnPage tag nodes x)
    (hnodup : (l.map Element.place).Nodup) (hmem : ∀ x, x ∈ l ↔ .element x ∈ spots)
    (hnone : .document ∉ spots) : Lists tag nodes context (l.map .element) spots := by
  refine ⟨l.map .element, by rw [List.map_map]; rfl, ?_, ?_, fun b => ?_⟩
  · intro b hb
    obtain ⟨x, hx, rfl⟩ := List.mem_map.mp hb
    exact hpage x hx
  · have hplaces : (l.map Item.element).map Item.place? = (l.map Element.place).map some := by
      rw [List.map_map, List.map_map]
      rfl
    rw [hplaces]
    exact hnodup.map (Option.some_injective _)
  · cases b with
    | document => simp [hnone]
    | element x =>
      rw [← hmem, List.mem_map]
      simp

/-- **A step to elements** takes items that list nodes to items that list what it leads to. -/
theorem lists_apply (h : Lists tag nodes context items spots) (hstep : step.IsElementStep)
    (hself : step.test = .self → .document ∉ spots) :
    Lists tag nodes context (step.apply items) (step.image context spots) := by
  obtain ⟨found, rfl, hpage, -, hspots⟩ := h
  -- above the context element is no item any more
  have hnone : .document ∉ step.image context spots := document_notMem_image hself hstep
  obtain ⟨l, hl, hmem⟩ :=
    exists_eq_map_element (fun _ => mem_flatMap_fromItem_iff hspots hstep) hnone
  have hpage_l : ∀ x ∈ l, OnPage tag nodes x := by
    intro x hx
    obtain ⟨a, ha, hleads⟩ := (hmem x).mp hx
    exact (hpage a ((hspots a).mp ha)).leads hleads
  obtain ⟨kept, hkept, hnodup, hmem_kept⟩ := exists_distinct hpage_l
  rw [Step.apply_eq, hl, hkept]
  exact lists_map_element (fun x hx => hpage_l x ((hmem_kept x).mp hx)) hnodup
    (fun x => (hmem_kept x).trans (hmem x)) hnone

theorem lists_foldl {steps : List Step} (h : Lists tag nodes context items spots)
    (hsteps : ∀ step ∈ steps, step.IsElementStep)
    (hself : ∀ step, steps.head? = some step → step.test = .self → .document ∉ spots) :
    Lists tag nodes context (steps.foldl (fun items step => step.apply items) items)
      (steps.foldl (Step.image context) spots) := by
  induction steps generalizing items spots with
  | nil => exact h
  | cons step steps ih =>
    have hstep := hsteps step List.mem_cons_self
    have hfirst := hself step rfl
    exact ih (lists_apply h hstep hfirst) (fun s hs => hsteps s (List.mem_cons_of_mem _ hs))
      fun _ _ _ => document_notMem_image hfirst hstep

/-- **A path to elements** comes to what it means, each node once. -/
theorem lists_evaluate (hcontext : OnPage tag nodes context) (hpath : path.IsElementPath) :
    Lists tag nodes context (path.evaluate context) (path.nodes context) := by
  refine lists_foldl ?_ hpath.steps ?_
  · -- the first item is the context element, or what is above it
    cases path.absolute with
    | false =>
      exact ⟨[.element context], rfl, by simpa [Spot.Within] using hcontext, by simp, by simp⟩
    | true => exact ⟨[.document], rfl, by simpa [Spot.Within] using hcontext, by simp, by simp⟩
  · intro step hfirst hself hdocument
    cases habsolute : path.absolute with
    | false => simp [habsolute] at hdocument
    | true => exact hpath.moves habsolute step hfirst hself

/-- **A query of one path to elements** selects the nodes that the path means, each once. -/
theorem select_path (hcontext : OnPage tag nodes context) (hpath : path.IsElementPath) :
    (((Query.mk [path]).select context).map Item.place?).Nodup ∧
      ∀ item, item ∈ (Query.mk [path]).select context ↔
        ∃ a ∈ path.nodes context, item = a.item context := by
  obtain ⟨found, hfound, -, hnodup, hspots⟩ := lists_evaluate hcontext hpath
  have hselect : (Query.mk [path]).select context = path.evaluate context := by
    refine select_eq_evaluate (List.Pairwise.imp ?_ (List.pairwise_map.mp hnodup))
    exact fun hne _ => hne
  rw [hselect]
  refine ⟨hnodup, fun item => ?_⟩
  rw [hfound, List.mem_map]
  simp only [hspots, eq_comm]

/-- A list whose first item holds a list. -/
def outline : Element :=
  .top ⟨.html, "ul", []⟩
    [.element ⟨.html, "li", []⟩
      [.element ⟨.html, "ul", []⟩ [.element ⟨.html, "li", []⟩ [], .element ⟨.html, "li", []⟩ []]],
     .element ⟨.html, "li", []⟩ []]

/-- The path `//li[1]/..`. -/
def aboveFirstItems : Path :=
  ⟨true, [⟨.descendant, .name "li", [.position 1]⟩, ⟨.child, .parent, []⟩]⟩

/-- Both lists of the outline have a first item. -/
theorem select_aboveFirstItems :
    ((Query.mk [aboveFirstItems]).select outline).map Item.place? = [some [], some [0, 0]] ∧
      ∀ item, item ∈ (Query.mk [aboveFirstItems]).select outline ↔
        ∃ a ∈ aboveFirstItems.nodes outline, item = a.item outline := by
  have hpage : OnPage outline.tag outline.nodes outline := .refl
  have hpath : aboveFirstItems.IsElementPath :=
    ⟨by simp [aboveFirstItems, Step.IsElementStep, Step.CountsFromOne], by simp [aboveFirstItems]⟩
  exact ⟨by decide, (select_path hpage hpath).2⟩

end Scrape.XPath
