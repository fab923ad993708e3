import Scrape.Proofs.XPath.Located

/-!
# XPath — Block, groups of one parent put together

A step to elements sorts what it comes to into groups, one for each parent, keeps some of each group
and puts the rest together, each element where it comes first.  A group may come from several items,
but then it is the same group each time (`Separate`); so of what is put together, the elements with
one parent are what is kept of one group, in its order (`siblings_flatMap`).

Main statement (`exists_blocks`): what is put together is what is kept of the groups, each taken
once, whatever it is that is kept.
-/

namespace Scrape.XPath

open Relation (ReflTransGen TransGen)
open Scrape.Html (Element Tag)
open Scrape.Html.Element (OnPage)

variable {tag : Tag} {nodes : List Html.Node} {context : Element} {items : List Item}

/-! ### What is put together -/

/-- Groups of elements, each of one parent and with no two at one place, and one group for each
parent. -/
structure Separate (groups : List (List Element)) : Prop where
  together : ∀ g ∈ groups, ∀ x ∈ g, ∀ y ∈ g, x.parentPlace? = y.parentPlace?
  apart : ∀ g ∈ groups, ∀ g' ∈ groups, ∀ x ∈ g, ∀ y ∈ g', x.parentPlace? = y.parentPlace? → g = g'
  places : ∀ g ∈ groups, (g.map Element.place).Nodup
  keyed : ∀ g ∈ groups, ∀ g' ∈ groups, ∀ x ∈ g, ∀ y ∈ g', x.place = y.place →
    x.parentPlace? = y.parentPlace?

theorem Separate.mono {groups groups' : List (List Element)} (h : Separate groups')
    (hsub : ∀ g ∈ groups, g ∈ groups') : Separate groups where
  together g hg := h.together g (hsub g hg)
  apart g hg g' hg' := h.apart g (hsub g hg) g' (hsub g' hg')
  places g hg := h.places g (hsub g hg)
  keyed g hg g' hg' := h.keyed g (hsub g hg) g' (hsub g' hg')

theorem foldl_keepFirst_of_taken {kept l : List Element}
    (h : ∀ x ∈ l, ∃ y ∈ kept, y.place = x.place) :
    (l.map Item.element).foldl keepFirst (kept.map .element) = kept.map .element := by
  induction l with
  | nil => rfl
  | cons x l ih =>
    rw [List.forall_mem_cons] at h
    rw [List.map_cons, List.foldl_cons, keepFirst, if_pos (any_isAt_iff.mpr h.1), ih h.2]

theorem foldl_keepFirst_of_new {kept l : List Element} (hnodup : (l.map Element.place).Nodup)
    (h : ∀ x ∈ l, ∀ y ∈ kept, y.place ≠ x.place) :
    (l.map Item.element).foldl keepFirst (kept.map .element) =
      (l.reverse ++ kept).map .element := by
  induction l generalizing kept with
  | nil => rfl
  | cons x l ih =>
    rw [List.forall_mem_cons] at h
    rw [List.map_cons, List.nodup_cons] at hnodup
    have hnew : ¬ (kept.map Item.element).any (Item.isAt x) = true := by
      rw [any_isAt_iff]
      rintro ⟨y, hy, hplace⟩
      exact h.1 y hy hplace
    have hrest : ∀ z ∈ l, ∀ y ∈ x :: kept, y.place ≠ z.place := by
      intro z hz y hy
      rcases List.mem_cons.mp hy with rfl | hy
      · exact fun hplace => hnodup.1 (List.mem_map.mpr ⟨z, hz, hplace.symm⟩)
      · exact h.2 z hz y hy
    rw [List.map_cons, List.foldl_cons, keepFirst, if_neg hnew, ← List.map_cons, ih hnodup.2 hrest]
    simp

/-- Of what is put together, no two are at one place. -/
theorem nodup_of_distinct_eq {l found : List Element}
    (h : distinct (l.map .element) = found.map .element) : (found.map Element.place).Nodup := by
  obtain ⟨found', hfound, hnodup, -, -⟩ := exists_foldl_keepFirst l
  rw [distinct_eq, hfound, ← List.map_reverse] at h
  obtain rfl := List.map_injective_iff.mpr (fun _ _ => Item.element.inj) h
  rwa [List.map_reverse, List.nodup_reverse]

/-- The groups have no parent in common. -/
def Blocks (blocks : List (List Element)) : Prop :=
  blocks.Pairwise fun g g' => ∀ x ∈ g, ∀ y ∈ g', x.parentPlace? ≠ y.parentPlace?

/-- **What is put together of groups** is what is kept of each, taken once. -/
theorem exists_blocks {groups : List (List Element)} (h : Separate groups) :
    ∃ blocks, (∀ g, g ∈ blocks ↔ g ∈ groups) ∧ Blocks blocks ∧
      ∀ keep : List Element → List Element, (∀ g, (keep g).Sublist g) →
        distinct ((groups.flatMap keep).map .element) = (blocks.flatMap keep).map .element := by
  induction groups using List.reverseRecOn with
  | nil => exact ⟨[], by simp, .nil, fun _ _ => rfl⟩
  | append_singleton groups g ih =>
    have hsub : ∀ g' ∈ groups, g' ∈ groups ++ [g] := fun g' hg' => List.mem_append_left _ hg'
    have hlast : g ∈ groups ++ [g] := List.mem_append_right _ (List.mem_singleton_self g)
    obtain ⟨blocks, hmem, hblocks, hkeep⟩ := ih (h.mono hsub)
    have hfold (keep : List Element → List Element) (hsublist : ∀ g, (keep g).Sublist g) :
        distinct (((groups ++ [g]).flatMap keep).map .element) =
          (((keep g).map Item.element).foldl keepFirst
            ((blocks.flatMap keep).reverse.map .element)).reverse := by
      have hbefore := hkeep keep hsublist
      rw [distinct_eq] at hbefore
      rw [distinct_eq, List.flatMap_append, List.map_append, List.foldl_append,
        List.reverse_eq_iff.mp hbefore, List.map_reverse, List.flatMap_singleton]
    by_cases hg : g ∈ groups
    · -- the group has come before, and adds nothing
      refine ⟨blocks, fun g' => ?_, hblocks, fun keep hsublist => ?_⟩
      · rw [hmem, List.mem_append, List.mem_singleton]
        exact ⟨.inl, fun h => h.elim id (· ▸ hg)⟩
      · rw [hfold keep hsublist, foldl_keepFirst_of_taken, List.map_reverse, List.reverse_reverse]
        intro x hx
        exact ⟨x, List.mem_reverse.mpr (List.mem_flatMap.mpr ⟨g, (hmem g).mpr hg, hx⟩), rfl⟩
    · -- the group is new, and so are its places
      have hnew : ∀ g' ∈ blocks, ∀ x ∈ g', ∀ y ∈ g, x.parentPlace? ≠ y.parentPlace? := by
        intro g' hg' x hx y hy heq
        have hsame := h.apart g' (hsub g' ((hmem g').mp hg')) g hlast x hx y hy heq
        exact hg (hsame ▸ (hmem g').mp hg')
      refine ⟨blocks ++ [g], fun g' => ?_, ?_, fun keep hsublist => ?_⟩
      · rw [List.mem_append, List.mem_append, hmem]
      · exact List.pairwise_append.mpr ⟨hblocks, List.pairwise_singleton _ _, by simpa using hnew⟩
      · rw [hfold keep hsublist, foldl_keepFirst_of_new]
        · simp
        · exact ((hsublist g).map _).nodup (h.places g hlast)
        · intro x hx y hy hplace
          obtain ⟨g', hg', hy⟩ := List.mem_flatMap.mp (List.mem_reverse.mp hy)
          have hx' := (hsublist g).subset hx
          have hy' := (hsublist g').subset hy
          have hg'' := hsub g' ((hmem g').mp hg')
          exact hnew g' hg' y hy' x hx' (h.keyed g' hg'' g hlast y hy' x hx' hplace)

/-- Of what is kept of groups without a common parent, the elements with one parent are those of one
group. -/
theorem siblings_flatMap {blocks : List (List Element)} {keep : List Element → List Element}
    {g : List Element} {x : Element} (hblocks : Blocks blocks)
    (htogether : ∀ g ∈ blocks, ∀ x ∈ g, ∀ y ∈ g, x.parentPlace? = y.parentPlace?)
    (hkeep : ∀ g, (keep g).Sublist g) (hg : g ∈ blocks) (hx : x ∈ keep g) :
    siblings (blocks.flatMap keep) x = keep g := by
  have hx' := (hkeep g).subset hx
  obtain ⟨before, after, rfl⟩ := List.append_of_mem hg
  obtain ⟨-, hafter, hbefore⟩ := List.pairwise_append.mp hblocks
  have hnone {l : List (List Element)}
      (hl : ∀ g' ∈ l, ∀ y ∈ g', y.parentPlace? ≠ x.parentPlace?) :
      siblings (l.flatMap keep) x = [] := by
    rw [siblings, List.filter_eq_nil_iff]
    intro y hy hkey
    obtain ⟨g', hg', hy⟩ := List.mem_flatMap.mp hy
    exact hl g' hg' y ((hkeep g').subset hy) (beq_iff_eq.mp hkey)
  have hall : siblings (keep g) x = keep g := by
    rw [siblings, List.filter_eq_self]
    exact fun y hy => beq_iff_eq.mpr (htogether g hg y ((hkeep g).subset hy) x hx')
  rw [siblings, List.flatMap_append, List.flatMap_cons, List.filter_append, List.filter_append]
  change siblings _ x ++ (siblings _ x ++ siblings _ x) = _
  rw [hall, hnone, hnone, List.append_nil, List.nil_append]
  · exact fun g' hg' y hy => ((List.pairwise_cons.mp hafter).1 g' hg' x hx' y hy).symm
  · exact fun g' hg' y hy => hbefore g' hg' g List.mem_cons_self y hy x hx'

/-! ### Items of a page -/

/-- The item is an element of a page, or a text. -/
def Item.OnPage (tag : Tag) (nodes : List Html.Node) : Item → Prop
  | .root _    => False
  | .element e => Element.OnPage tag nodes e
  | .text _    => True

/-- The items are what is above the context element alone, or elements of its page and texts. -/
def Settled (tag : Tag) (nodes : List Html.Node) (context : Element) (items : List Item) : Prop :=
  items = [.root context] ∨ ∀ i ∈ items, i.OnPage tag nodes

theorem mem_of_mem_distinct {i : Item} (h : i ∈ distinct items) : i ∈ items := by
  have hkeep (kept : List Item) (item : Item) (h : i ∈ keepFirst kept item) :
      i = item ∨ i ∈ kept := by
    cases item with
    | element e =>
      rw [keepFirst] at h
      split at h
      · exact .inr h
      · exact List.mem_cons.mp h
    | root e => exact List.mem_cons.mp h
    | text s => exact List.mem_cons.mp h
  have hfold (l : List Item) (h : i ∈ l.foldl keepFirst []) : i ∈ l := by
    induction l using List.reverseRecOn with
    | nil => exact h
    | append_singleton l item ih =>
      rw [List.foldl_concat] at h
      rcases hkeep _ item h with rfl | h
      · exact List.mem_append_right _ (List.mem_singleton_self i)
      · exact List.mem_append_left _ (ih h)
  rw [distinct_eq, List.mem_reverse] at h
  exact hfold items h

theorem Predicate.keep_sublist (p : Predicate) (l : List Element) : (p.keep l).Sublist l := by
  have hone {e? : Option Element} (h : ∀ e ∈ e?, e ∈ l) : e?.toList.Sublist l := by
    cases e? with
    | none => exact List.nil_sublist l
    | some e => exact List.singleton_sublist.mpr (h e rfl)
  cases p with
  | position n => exact hone fun e he => List.mem_of_getElem? he
  | last => exact hone fun e he => List.mem_of_getLast? he
  | hasAttr n => exact List.filter_sublist
  | equals op s => exact List.filter_sublist
  | contains op s => exact List.filter_sublist
  | startsWith op s => exact List.filter_sublist

theorem Step.keep_sublist (step : Step) (l : List Element) : (step.keep l).Sublist l := by
  rw [Step.keep]
  generalize step.predicates = predicates
  induction predicates generalizing l with
  | nil => exact List.Sublist.refl l
  | cons p ps ih => exact (ih _).trans (p.keep_sublist l)

/-- The groups of a step from a node are what passes its test of the children of nodes. -/
theorem exists_of_mem_groups {step : Step} {a : Spot} {g : List Element}
    (h : g ∈ a.groups context step) :
    ∃ n, a.Reaches context n ∧ g = (n.children context).filter fun y => step.test.passes y := by
  obtain ⟨axis, test, predicates⟩ := step
  cases axis with
  | child =>
    refine ⟨a, .refl, ?_⟩
    cases a <;> exact List.mem_singleton.mp h
  | descendant =>
    have hgroup : g ∈ byParent ((a.reached context .descendant).filter fun y => test.passes y) := by
      cases a <;> exact h
    obtain ⟨n, hn, heq, -⟩ := mem_byParent_reached_iff.mp hgroup
    exact ⟨n, hn, heq⟩

/-- A test takes elements by their names, or all. -/
def Test.TakesElements : Test → Prop
  | .name _ | .any => True
  | _ => False

/-- The groups that a step sorts into what it comes to from an item. -/
def Item.groups (step : Step) : Item → List (List Element)
  | .root e    => step.groups true e
  | .element e => step.groups false e
  | .text _    => []

theorem Item.groups_item (step : Step) (a : Spot) :
    (a.item context).groups step = a.groups context step := by
  cases a <;> rfl

/-- What a step by names gives from an item is what it keeps of its groups. -/
theorem fromItem_eq {step : Step} (hstep : step.test.TakesElements) (i : Item) :
    step.fromItem i = ((i.groups step).flatMap step.keep).map .element := by
  obtain ⟨axis, test, predicates⟩ := step
  cases test with
  | name n => cases i <;> rfl
  | any => cases i <;> rfl
  | self => exact absurd hstep id
  | parent => exact absurd hstep id
  | text => exact absurd hstep id
  | attr n => exact absurd hstep id

/-- What a step gives from a node is on its page, unless it stays above the context element. -/
theorem onPage_of_mem_fromItem {step : Step} {a : Spot} {i : Item} (ha : a.Within tag nodes context)
    (hi : i ∈ step.fromItem (a.item context)) :
    (step.test = .self ∧ a = .document) ∨ i.OnPage tag nodes := by
  have hnamed (hstep : step.test.TakesElements) : i.OnPage tag nodes := by
    rw [fromItem_eq hstep, Item.groups_item] at hi
    obtain ⟨x, hx, rfl⟩ := List.mem_map.mp hi
    obtain ⟨g, hg, hx⟩ := List.mem_flatMap.mp hx
    obtain ⟨n, hn, rfl⟩ := exists_of_mem_groups hg
    exact (ha.reaches hn).children (List.mem_of_mem_filter ((step.keep_sublist _).subset hx))
  obtain ⟨axis, test, predicates⟩ := step
  cases test with
  | name n => exact .inr (hnamed trivial)
  | any => exact .inr (hnamed trivial)
  | self =>
    cases a with
    | document => exact .inl ⟨rfl, rfl⟩
    | element e =>
      obtain ⟨x, hx, rfl⟩ := List.mem_map.mp hi
      obtain rfl := List.mem_singleton.mp ((Step.keep_sublist _ _).subset hx)
      exact .inr ha
  | parent =>
    cases a with
    | document => cases hi
    | element e =>
      obtain ⟨x, hx, rfl⟩ := List.mem_map.mp hi
      have hparent := Option.mem_toList.mp ((Step.keep_sublist _ _).subset hx)
      exact .inr (ha.parent hparent)
  | text =>
    have htext : ∃ s, i = .text s := by
      cases a <;> obtain ⟨s, -, rfl⟩ := List.mem_map.mp hi <;> exact ⟨s, rfl⟩
    obtain ⟨s, rfl⟩ := htext
    exact .inr trivial
  | attr n =>
    have htext : ∃ s, i = .text s := by
      cases a <;> obtain ⟨s, -, rfl⟩ := List.mem_map.mp hi <;> exact ⟨s, rfl⟩
    obtain ⟨s, rfl⟩ := htext
    exact .inr trivial

theorem settled_apply (hcontext : OnPage tag nodes context) (h : Settled tag nodes context items)
    (step : Step) : Settled tag nodes context (step.apply items) := by
  rw [Step.apply_eq]
  rcases h with rfl | h
  · rw [List.flatMap_singleton]
    by_cases hself : step.test = .self
    · obtain ⟨axis, test, predicates⟩ := step
      obtain rfl : test = .self := hself
      exact .inl rfl
    · refine .inr fun i hi => ?_
      have ha : Spot.document.Within tag nodes context := hcontext
      exact (onPage_of_mem_fromItem ha (mem_of_mem_distinct hi)).resolve_left fun h => hself h.1
  · refine .inr fun i hi => ?_
    obtain ⟨item, hitem, hi⟩ := List.mem_flatMap.mp (mem_of_mem_distinct hi)
    cases item with
    | root e => exact absurd (h _ hitem) id
    | element e =>
      have ha : (Spot.element e).Within tag nodes context := h _ hitem
      exact (onPage_of_mem_fromItem ha hi).resolve_left nofun
    | text s => cases hi

/-- **The items that a path comes to** are on the page of the context element, or above it alone. -/
theorem settled_evaluate (hcontext : OnPage tag nodes context) (path : Path) :
    Settled tag nodes context (path.evaluate context) := by
  have hfold (steps : List Step) {items : List Item} (h : Settled tag nodes context items) :
      Settled tag nodes context (steps.foldl (fun items step => step.apply items) items) := by
    induction steps generalizing items with
    | nil => exact h
    | cons step steps ih => exact ih (settled_apply hcontext h step)
  refine hfold path.steps ?_
  cases path.absolute with
  | true => exact .inl rfl
  | false =>
    refine .inr fun i hi => ?_
    obtain rfl := List.mem_singleton.mp hi
    exact hcontext

/-! ### The groups of a step -/

/-- Of two nodes above elements, the places that are above their children are different. -/
def Keyed (context : Element) (origins : Set Spot) : Prop :=
  ∀ n ∈ origins, ∀ n' ∈ origins, n.childrenKey? context = n'.childrenKey? context → n = n'

theorem keyed_reached (hcontext : OnPage tag nodes context) :
    Keyed context { n | Spot.document.Reaches context n } := by
  have hpage : Spot.document.Within tag nodes context := hcontext
  -- below the context element, the places are longer than the one above it
  have hbelow {e : Element} (he : Spot.document.Reaches context (.element e)) :
      context.parentPlace? ≠ some e.place := by
    intro hkey
    rcases Spot.reaches_document_iff.mp he with heq | he
    · cases heq
    · obtain ⟨m, heq, hm⟩ := Spot.reaches_element_iff.mp he
      cases heq
      have hlt := Element.length_lt_of_parentPlace? hkey
      exact Nat.not_lt_of_le (Element.suffix_place hm).length_le hlt
  intro n hn n' hn' hkey
  cases n with
  | document =>
    cases n' with
    | document => rfl
    | element e => exact absurd hkey (hbelow hn')
  | element e =>
    cases n' with
    | document => exact absurd hkey.symm (hbelow hn)
    | element e' =>
      have hplaces := Option.some.inj hkey
      exact congrArg _ ((hpage.reaches hn).eq_of_place_eq (hpage.reaches hn') hplaces)

/-- The elements of a page. -/
def elementsOf (tag : Tag) (nodes : List Html.Node) : Set Spot :=
  { n | ∃ e, OnPage tag nodes e ∧ n = .element e }

theorem keyed_elementsOf : Keyed context (elementsOf tag nodes) := by
  rintro _ ⟨e, he, rfl⟩ _ ⟨e', he', rfl⟩ hkey
  exact congrArg _ (he.eq_of_place_eq he' (Option.some.inj hkey))

/-- Groups of the children of nodes whose children have different parents are separate. -/
theorem separate_of_keyed {groups : List (List Element)} {origins : Set Spot} {test : Test}
    (hkeyed : Keyed context origins) (hpage : ∀ n ∈ origins, n.Within tag nodes context)
    (hgroups : ∀ g ∈ groups, ∃ n ∈ origins,
      g = (n.children context).filter fun y => test.passes y) : Separate groups := by
  have hparent {n : Spot} {x : Element}
      (hx : x ∈ (n.children context).filter fun y => test.passes y) :
      x.parentPlace? = n.childrenKey? context :=
    Spot.parentPlace?_of_mem_children (List.mem_of_mem_filter hx)
  constructor
  case together =>
    intro g hg x hx y hy
    obtain ⟨n, -, rfl⟩ := hgroups g hg
    rw [hparent hx, hparent hy]
  case apart =>
    intro g hg g' hg' x hx y hy hkey
    obtain ⟨n, hn, rfl⟩ := hgroups g hg
    obtain ⟨n', hn', rfl⟩ := hgroups g' hg'
    rw [hparent hx, hparent hy] at hkey
    rw [hkeyed n hn n' hn' hkey]
  case places =>
    intro g hg
    obtain ⟨n, -, rfl⟩ := hgroups g hg
    refine List.Nodup.sublist ((List.filter_sublist).map _) ?_
    cases n with
    | document => exact List.nodup_singleton _
    | element e => exact List.pairwise_map.mpr (Element.pairwise_children e)
  case keyed =>
    intro g hg g' hg' x hx y hy hplace
    obtain ⟨n, hn, rfl⟩ := hgroups g hg
    obtain ⟨n', hn', rfl⟩ := hgroups g' hg'
    have hxPage := (hpage n hn).children (List.mem_of_mem_filter hx)
    have hyPage := (hpage n' hn').children (List.mem_of_mem_filter hy)
    rw [hxPage.eq_of_place_eq hyPage hplace]

/-- **The groups of a step** from items of a page are separate. -/
theorem separate_groups (hcontext : OnPage tag nodes context) (h : Settled tag nodes context items)
    (step : Step) : Separate (items.flatMap (Item.groups step)) := by
  have hdocument : Spot.document.Within tag nodes context := hcontext
  rcases h with rfl | h
  · have hgroups : ∀ g ∈ [Item.root context].flatMap (Item.groups step),
        ∃ n ∈ { n | Spot.document.Reaches context n },
          g = (n.children context).filter fun y => step.test.passes y := by
      intro g hg
      rw [List.flatMap_singleton] at hg
      exact exists_of_mem_groups (a := .document) hg
    exact separate_of_keyed (keyed_reached hcontext) (fun n hn => hdocument.reaches hn) hgroups
  · have hpage : ∀ n ∈ elementsOf tag nodes, n.Within tag nodes context := by
      rintro _ ⟨e, he, rfl⟩
      exact he
    have hgroups : ∀ g ∈ items.flatMap (Item.groups step), ∃ n ∈ elementsOf tag nodes,
        g = (n.children context).filter fun y => step.test.passes y := by
      intro g hg
      obtain ⟨i, hi, hg⟩ := List.mem_flatMap.mp hg
      cases i with
      | root e => exact absurd (h _ hi) id
      | element e =>
        obtain ⟨n, hn, heq⟩ := exists_of_mem_groups (a := .element e) hg
        obtain ⟨m, rfl, hm⟩ := Spot.reaches_element_iff.mp hn
        exact ⟨.element m, ⟨m, ReflTransGen.trans (h _ hi) hm, rfl⟩, heq⟩
      | text s => cases hg
    exact separate_of_keyed keyed_elementsOf hpage hgroups

end Scrape.XPath
