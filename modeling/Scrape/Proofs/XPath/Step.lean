import Mathlib.Data.List.Induction
import Scrape.Proofs.XPath.Meaning

/-!
# XPath — Step, from one node

What a step gives from one node, against the relation `Leads`.  The step after `//` collects all
elements below and sorts them by the element above (`byParent`); each group then is what passes the
test among the children of one node (`filter_reached`), so a place in a predicate counts where the
relation has it count.

Main statement (`mem_fromItem_iff`): a step to elements gives from a node what it leads to.
-/

namespace Scrape.XPath

open Relation (TransGen)
open Scrape.Html (Element)
open Scrape.Html.Element (IsChild)

/-! ### Groups of one parent -/

/-- The elements of a list that have the parent of an element. -/
def siblings (found : List Element) (y : Element) : List Element :=
  found.filter fun x => x.parentPlace? == y.parentPlace?

/-- The groups, each with the place of the parent and in reverse, with one more element. -/
def addSibling (groups : List (Option (List Nat) × List Element)) (e : Element) :
    List (Option (List Nat) × List Element) :=
  if groups.any fun g => g.1 == e.parentPlace? then
    groups.map fun g => if g.1 == e.parentPlace? then (g.1, e :: g.2) else g
  else groups ++ [(e.parentPlace?, [e])]

theorem byParent_eq (found : List Element) :
    byParent found = (found.foldl addSibling []).map fun g => g.2.reverse := rfl

/-- The group of an element, with the place of its parent and in reverse. -/
def groupOf (found : List Element) (y : Element) : Option (List Nat) × List Element :=
  (y.parentPlace?, (siblings found y).reverse)

theorem groupOf_append_of_eq {found : List Element} {e y : Element}
    (h : y.parentPlace? = e.parentPlace?) :
    groupOf (found ++ [e]) y = (y.parentPlace?, e :: (groupOf found y).2) := by
  simp [groupOf, siblings, h]

theorem groupOf_append_of_ne {found : List Element} {e y : Element}
    (h : y.parentPlace? ≠ e.parentPlace?) : groupOf (found ++ [e]) y = groupOf found y := by
  simp [groupOf, siblings, Ne.symm h]

/-- The groups are those of the elements of a list. -/
def Sorts (groups : List (Option (List Nat) × List Element)) (found : List Element) : Prop :=
  ∀ g, g ∈ groups ↔ ∃ y ∈ found, g = groupOf found y

section

variable {groups : List (Option (List Nat) × List Element)} {found : List Element} {e : Element}

theorem Sorts.any_iff (h : Sorts groups found) :
    (groups.any fun g => g.1 == e.parentPlace?) = true ↔
      ∃ y ∈ found, y.parentPlace? = e.parentPlace? := by
  rw [List.any_eq_true]
  constructor
  · rintro ⟨g, hg, hkey⟩
    obtain ⟨y, hy, rfl⟩ := (h g).mp hg
    exact ⟨y, hy, beq_iff_eq.mp hkey⟩
  · rintro ⟨y, hy, hkey⟩
    exact ⟨groupOf found y, (h _).mpr ⟨y, hy, rfl⟩, beq_iff_eq.mpr hkey⟩

/-- An element with a sibling joins its group. -/
theorem Sorts.map_add {y₀ : Element} (h : Sorts groups found) (hy₀ : y₀ ∈ found)
    (hsibling : y₀.parentPlace? = e.parentPlace?) :
    Sorts (groups.map fun g => if g.1 == e.parentPlace? then (g.1, e :: g.2) else g)
      (found ++ [e]) := by
  have hadd (y : Element) : (if (groupOf found y).1 == e.parentPlace? then
      ((groupOf found y).1, e :: (groupOf found y).2) else groupOf found y) =
        groupOf (found ++ [e]) y := by
    by_cases hy : y.parentPlace? = e.parentPlace?
    · rw [groupOf_append_of_eq hy, if_pos (by simpa [groupOf] using hy)]
      rfl
    · rw [groupOf_append_of_ne hy, if_neg (by simpa [groupOf] using hy)]
  intro g
  rw [List.mem_map]
  constructor
  · rintro ⟨g', hg', rfl⟩
    obtain ⟨y, hy, rfl⟩ := (h g').mp hg'
    exact ⟨y, List.mem_append_left _ hy, hadd y⟩
  · rintro ⟨y, hy, rfl⟩
    rcases List.mem_append.mp hy with hy | hy
    · exact ⟨groupOf found y, (h _).mpr ⟨y, hy, rfl⟩, hadd y⟩
    · -- the sibling stands for the element
      obtain rfl := List.mem_singleton.mp hy
      have hsame : groupOf (found ++ [y]) y₀ = groupOf (found ++ [y]) y := by
        rw [groupOf, groupOf, siblings, siblings, hsibling]
      exact ⟨groupOf found y₀, (h _).mpr ⟨y₀, hy₀, rfl⟩, (hadd y₀).trans hsame⟩

/-- An element without a sibling is a new group. -/
theorem Sorts.append_new (h : Sorts groups found)
    (hnew : ∀ y ∈ found, y.parentPlace? ≠ e.parentPlace?) :
    Sorts (groups ++ [(e.parentPlace?, [e])]) (found ++ [e]) := by
  have hgroup : groupOf (found ++ [e]) e = (e.parentPlace?, [e]) := by
    rw [groupOf_append_of_eq rfl, groupOf, siblings, List.filter_eq_nil_iff.mpr]
    · rfl
    · exact fun y hy hkey => hnew y hy (beq_iff_eq.mp hkey)
  intro g
  rw [List.mem_append, List.mem_singleton, h, ← hgroup]
  constructor
  · rintro (⟨y, hy, rfl⟩ | rfl)
    · exact ⟨y, List.mem_append_left _ hy, (groupOf_append_of_ne (hnew y hy)).symm⟩
    · exact ⟨e, List.mem_append_right _ (List.mem_singleton_self e), rfl⟩
  · rintro ⟨y, hy, rfl⟩
    rcases List.mem_append.mp hy with hy | hy
    · exact .inl ⟨y, hy, groupOf_append_of_ne (hnew y hy)⟩
    · obtain rfl := List.mem_singleton.mp hy
      exact .inr rfl

theorem Sorts.addSibling (h : Sorts groups found) :
    Sorts (XPath.addSibling groups e) (found ++ [e]) := by
  rw [XPath.addSibling]
  split
  next hany =>
    obtain ⟨y₀, hy₀, hsibling⟩ := h.any_iff.mp hany
    exact h.map_add hy₀ hsibling
  next hany => exact h.append_new fun y hy hkey => hany (h.any_iff.mpr ⟨y, hy, hkey⟩)

theorem sorts_foldl (found : List Element) : Sorts (found.foldl addSibling []) found := by
  induction found using List.reverseRecOn with
  | nil => exact fun g => by simp
  | append_singleton found e ih =>
    rw [List.foldl_concat]
    exact ih.addSibling

/-- **The groups** of a list are the siblings of its elements in it. -/
theorem mem_byParent_iff {group : List Element} :
    group ∈ byParent found ↔ ∃ y ∈ found, group = siblings found y := by
  rw [byParent_eq, List.mem_map]
  constructor
  · rintro ⟨g, hg, rfl⟩
    obtain ⟨y, hy, rfl⟩ := (sorts_foldl found g).mp hg
    exact ⟨y, hy, List.reverse_reverse _⟩
  · rintro ⟨y, hy, rfl⟩
    exact ⟨groupOf found y, (sorts_foldl found _).mpr ⟨y, hy, rfl⟩, List.reverse_reverse _⟩

end

/-! ### What a step comes to -/

namespace Spot

/-- The item that stands for a node. -/
def item (context : Element) : Spot → Item
  | document  => .root context
  | element e => .element e

/-- The elements that a step comes to from a node by its axis. -/
def reached (context : Element) (axis : Axis) : Spot → List Element
  | document  => XPath.reached true axis context
  | element e => XPath.reached false axis e

/-- The groups that a step sorts into what it comes to from a node. -/
def groups (context : Element) (step : Step) : Spot → List (List Element)
  | document  => step.groups true context
  | element e => step.groups false e

/-- The place of the parent of each child of a node. -/
def childrenKey? (context : Element) : Spot → Option (List Nat)
  | document  => context.parentPlace?
  | element e => some e.place

variable {context x : Element} {a n : Spot}

theorem parentPlace?_of_mem_children (h : x ∈ n.children context) :
    x.parentPlace? = n.childrenKey? context := by
  cases n with
  | document => rw [List.mem_singleton.mp h, childrenKey?]
  | element e => exact IsChild.parentPlace? h

theorem mem_reached_iff :
    x ∈ a.reached context .descendant ↔ ∃ n, a.Reaches context n ∧ x ∈ n.children context := by
  have hbelow (e : Element) : x ∈ e.descendants ↔
      ∃ n, Reaches context (.element e) n ∧ x ∈ n.children context := by
    rw [Element.mem_descendants_iff, TransGen.tail'_iff]
    simp only [reaches_element_iff]
    constructor
    · rintro ⟨m, hm, hx⟩
      exact ⟨.element m, ⟨m, rfl, hm⟩, hx⟩
    · rintro ⟨_, ⟨m, rfl, hm⟩, hx⟩
      exact ⟨m, hm, hx⟩
  cases a with
  | element e => exact hbelow e
  | document =>
    refine List.mem_cons.trans ?_
    rw [hbelow context]
    simp only [reaches_document_iff]
    constructor
    · rintro (rfl | ⟨n, hn, hx⟩)
      · exact ⟨.document, .inl rfl, List.mem_singleton_self x⟩
      · exact ⟨n, .inr hn, hx⟩
    · rintro ⟨n, rfl | hn, hx⟩
      · exact .inl (List.mem_singleton.mp hx)
      · exact .inr ⟨n, hn, hx⟩

/-- **Of all that a step after `//` comes to**, what has one parent is the children of a node. -/
theorem filter_reached (h : a.Reaches context n) :
    (a.reached context .descendant).filter (fun x => x.parentPlace? == n.childrenKey? context) =
      n.children context := by
  cases a with
  | element e =>
    obtain ⟨m, rfl, hm⟩ := reaches_element_iff.mp h
    exact Element.filter_descendants hm
  | document =>
    change (context :: context.descendants).filter _ = _
    rcases reaches_document_iff.mp h with rfl | h
    · -- below the context element, the place of a parent is too long
      rw [List.filter_cons_of_pos (by simp [childrenKey?]), List.filter_eq_nil_iff.mpr]
      · rfl
      · intro z hz hkey
        obtain ⟨p, hp, hchild⟩ := TransGen.tail'_iff.mp (Element.mem_descendants_iff.mp hz)
        rw [beq_iff_eq, hchild.parentPlace?] at hkey
        have hlt := Element.length_lt_of_parentPlace? hkey.symm
        exact Nat.not_lt_of_le (Element.suffix_place hp).length_le hlt
    · obtain ⟨m, rfl, hm⟩ := reaches_element_iff.mp h
      refine (List.filter_cons_of_neg fun hkey => ?_).trans (Element.filter_descendants hm)
      have hlt := Element.length_lt_of_parentPlace? (beq_iff_eq.mp hkey)
      exact Nat.not_lt_of_le (Element.suffix_place hm).length_le hlt

end Spot

/-! ### What a step leads to -/

variable {context : Element} {a b : Spot} {test : Test} {predicates : List Predicate} {x : Element}

theorem remaining_nil : remaining predicates [] = [] :=
  List.eq_nil_iff_forall_not_mem.mpr fun _ h => List.not_mem_nil (mem_of_mem_remaining h)

theorem leads_self_iff : Leads context ⟨.child, .self, []⟩ a b ↔ b = a := by
  constructor
  · intro h
    cases h with
    | self => rfl
    | child h => exact absurd h (by simp [Test.passes, remaining_nil])
  · rintro rfl
    exact .self

theorem leads_parent_iff :
    Leads context ⟨.child, .parent, []⟩ a b ↔ ∃ p, a.parent? = some p ∧ b = .element p := by
  constructor
  · intro h
    cases h with
    | parent h => exact ⟨_, h, rfl⟩
    | child h => exact absurd h (by simp [Test.passes, remaining_nil])
  · rintro ⟨p, h, rfl⟩
    exact .parent h

theorem leads_child_iff (hself : test ≠ .self) (hparent : test ≠ .parent) :
    Leads context ⟨.child, test, predicates⟩ a b ↔ ∃ x, b = .element x ∧
      x ∈ remaining predicates ((a.children context).filter fun y => test.passes y) := by
  constructor
  · intro h
    cases h with
    | self => exact absurd rfl hself
    | parent => exact absurd rfl hparent
    | child h => exact ⟨_, rfl, h⟩
  · rintro ⟨x, rfl, h⟩
    exact .child h

theorem leads_descendant_iff :
    Leads context ⟨.descendant, test, predicates⟩ a b ↔ ∃ x, b = .element x ∧
      ∃ n, a.Reaches context n ∧
        x ∈ remaining predicates ((n.children context).filter fun y => test.passes y) := by
  constructor
  · intro h
    cases h with
    | descendant hn h => exact ⟨_, rfl, _, hn, h⟩
  · rintro ⟨x, rfl, n, hn, h⟩
    exact .descendant hn h

theorem exists_eq_element_of_leads {step : Step} (hself : step.test ≠ .self)
    (h : Leads context step a b) : ∃ x, b = .element x := by
  cases h with
  | self => exact absurd rfl hself
  | parent => exact ⟨_, rfl⟩
  | child => exact ⟨_, rfl⟩
  | descendant => exact ⟨_, rfl⟩

/-! ### What a step gives -/

/-- What a step gives from an item. -/
def Step.fromItem (step : Step) : Item → List Item
  | .root e    => step.from true e
  | .element e => step.from false e
  | .text _    => []

theorem Step.apply_eq (step : Step) (items : List Item) :
    step.apply items = distinct (items.flatMap step.fromItem) := rfl

/-- The groups of what passes the test after `//` are what passes it of the children of nodes. -/
theorem mem_byParent_reached_iff {group : List Element} :
    group ∈ byParent ((a.reached context .descendant).filter fun y => test.passes y) ↔
      ∃ n, a.Reaches context n ∧ group = ((n.children context).filter fun y => test.passes y) ∧
        group ≠ [] := by
  have hsiblings {n : Spot} {y : Element} (hn : a.Reaches context n) (hy : y ∈ n.children context) :
      siblings ((a.reached context .descendant).filter fun y => test.passes y) y =
        (n.children context).filter fun y => test.passes y := by
    rw [siblings, Spot.parentPlace?_of_mem_children hy, List.filter_comm, Spot.filter_reached hn]
  rw [mem_byParent_iff]
  constructor
  · rintro ⟨y, hy, rfl⟩
    obtain ⟨hreached, hpasses⟩ := List.mem_filter.mp hy
    obtain ⟨n, hn, hchild⟩ := Spot.mem_reached_iff.mp hreached
    rw [hsiblings hn hchild]
    exact ⟨n, hn, rfl, List.ne_nil_of_mem (List.mem_filter.mpr ⟨hchild, hpasses⟩)⟩
  · rintro ⟨n, hn, rfl, hne⟩
    obtain ⟨y, hy⟩ := List.exists_mem_of_ne_nil _ hne
    obtain ⟨hchild, hpasses⟩ := List.mem_filter.mp hy
    have hreached := Spot.mem_reached_iff.mpr ⟨n, hn, hchild⟩
    exact ⟨y, List.mem_filter.mpr ⟨hreached, hpasses⟩, (hsiblings hn hchild).symm⟩

theorem mem_flatMap_keep_iff {step : Step} (hself : step.test ≠ .self)
    (hparent : step.test ≠ .parent) (hcounts : step.CountsFromOne) :
    x ∈ (a.groups context step).flatMap step.keep ↔ Leads context step a (.element x) := by
  obtain ⟨axis, test, predicates⟩ := step
  simp only [List.mem_flatMap, Step.keep_eq_remaining hcounts]
  cases axis with
  | child =>
    have hgroups : a.groups context ⟨.child, test, predicates⟩ =
        [(a.children context).filter fun y => test.passes y] := by
      cases a <;> rfl
    simp only [hgroups, List.mem_singleton, leads_child_iff hself hparent, Spot.element.injEq,
      exists_eq_left', exists_eq_left]
  | descendant =>
    have hgroups : a.groups context ⟨.descendant, test, predicates⟩ =
        byParent ((a.reached context .descendant).filter fun y => test.passes y) := by
      cases a <;> rfl
    simp only [hgroups, mem_byParent_reached_iff, leads_descendant_iff, Spot.element.injEq,
      exists_eq_left']
    constructor
    · rintro ⟨_, ⟨n, hn, rfl, -⟩, hx⟩
      exact ⟨n, hn, hx⟩
    · rintro ⟨n, hn, hx⟩
      exact ⟨_, ⟨n, hn, rfl, List.ne_nil_of_mem (mem_of_mem_remaining hx)⟩, hx⟩

/-- **What a step to elements gives from a node** is what it leads to. -/
theorem mem_fromItem_iff {step : Step} (hstep : step.IsElementStep) {i : Item} :
    i ∈ step.fromItem (a.item context) ↔ ∃ b, Leads context step a b ∧ i = b.item context := by
  obtain ⟨axis, test, predicates⟩ := step
  have hnamed (hself : test ≠ .self) (hparent : test ≠ .parent)
      (hcounts : Step.CountsFromOne ⟨axis, test, predicates⟩)
      (hfrom : Step.fromItem ⟨axis, test, predicates⟩ (a.item context) =
        ((a.groups context ⟨axis, test, predicates⟩).flatMap
          (Step.keep ⟨axis, test, predicates⟩)).map .element) :
      i ∈ Step.fromItem ⟨axis, test, predicates⟩ (a.item context) ↔
        ∃ b, Leads context ⟨axis, test, predicates⟩ a b ∧ i = b.item context := by
    rw [hfrom, List.mem_map]
    constructor
    · rintro ⟨x, hx, rfl⟩
      exact ⟨.element x, (mem_flatMap_keep_iff hself hparent hcounts).mp hx, rfl⟩
    · rintro ⟨b, hb, rfl⟩
      obtain ⟨x, rfl⟩ := exists_eq_element_of_leads hself hb
      exact ⟨x, (mem_flatMap_keep_iff hself hparent hcounts).mpr hb, rfl⟩
  cases test with
  | name n => exact hnamed nofun nofun hstep (by cases a <;> rfl)
  | any => exact hnamed nofun nofun hstep (by cases a <;> rfl)
  | self =>
    obtain ⟨rfl, rfl⟩ : axis = .child ∧ predicates = [] := hstep
    simp only [leads_self_iff, exists_eq_left]
    cases a <;> exact List.mem_singleton
  | parent =>
    obtain ⟨rfl, rfl⟩ : axis = .child ∧ predicates = [] := hstep
    simp only [leads_parent_iff]
    cases a with
    | document => simp [Spot.item, Spot.parent?, Step.fromItem, Step.from]
    | element e =>
      change i ∈ e.parent?.toList.map Item.element ↔ _
      cases hp : e.parent? with
      | none => simp [Spot.parent?, hp]
      | some p => simp [Spot.parent?, Spot.item, hp]
  | text => exact absurd hstep id
  | attr n => exact absurd hstep id

end Scrape.XPath
