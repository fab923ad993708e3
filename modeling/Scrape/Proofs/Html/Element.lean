import Mathlib.Data.List.Nodup
import Mathlib.Logic.Relation
import Scrape.Html.Node

/-!
# Html — Element, its laws

The elements of a page are what is reached from its top by going down (`OnPage`), and such an
element is known by its place (`eq_of_place_eq`).  The list of all elements below an element holds
what is reached from it by going down (`mem_descendants_iff`), each once (`nodup_descendants`), and
of what is right below one of them it holds the children in their order (`filter_descendants`).
-/

namespace Scrape.Html.Element

open Relation (ReflTransGen TransGen)

/-- The second element is right below the first. -/
def IsChild (e x : Element) : Prop := x ∈ e.children

/-- The element is on the page whose top has the tag and the nodes. -/
def OnPage (tag : Tag) (nodes : List Node) (e : Element) : Prop :=
  ReflTransGen IsChild (.top tag nodes) e

variable {e x y n : Element} {tag : Tag} {nodes : List Node}

/-! ### Right below -/

theorem mem_childrenFrom_iff {i : Nat} :
    x ∈ childrenFrom e i nodes ↔
      ∃ j t c, nodes[j]? = some (.element t c) ∧ x = .child e (i + j) t c := by
  induction nodes generalizing i with
  | nil => simp [childrenFrom]
  | cons n r ih =>
    -- the first node is at the index 0, and those after it are one further
    have hnext (j : Nat) : i + 1 + j = i + (j + 1) := Nat.add_right_comm i 1 j
    rw [← Nat.or_exists_add_one]
    cases n <;> simp [childrenFrom, ih, hnext]

theorem isChild_iff :
    IsChild e x ↔ ∃ i t c, e.nodes[i]? = some (.element t c) ∧ x = .child e i t c := by
  have h : IsChild e x ↔ _ := mem_childrenFrom_iff
  simpa only [Nat.zero_add] using h

theorem IsChild.parent? (h : IsChild e x) : x.parent? = some e := by
  obtain ⟨i, t, c, -, rfl⟩ := isChild_iff.mp h
  rfl

theorem IsChild.place (h : IsChild e x) : ∃ i, x.place = i :: e.place := by
  obtain ⟨i, t, c, -, rfl⟩ := isChild_iff.mp h
  exact ⟨i, rfl⟩

/-- A child of an element is known by its place. -/
theorem IsChild.eq_of_place_eq (hx : IsChild e x) (hy : IsChild e y) (h : x.place = y.place) :
    x = y := by
  obtain ⟨i, t, c, hi, rfl⟩ := isChild_iff.mp hx
  obtain ⟨j, t', c', hj, rfl⟩ := isChild_iff.mp hy
  obtain ⟨rfl, -⟩ := List.cons.inj h
  obtain ⟨rfl, rfl⟩ := Node.element.inj (Option.some.inj (hi.symm.trans hj))
  rfl

/-- Children of an element are at different places. -/
theorem pairwise_childrenFrom (e : Element) (i : Nat) (nodes : List Node) :
    (childrenFrom e i nodes).Pairwise fun x y => x.place ≠ y.place := by
  induction nodes generalizing i with
  | nil => exact .nil
  | cons n r ih =>
    cases n with
    | element t c =>
      refine List.pairwise_cons.mpr ⟨fun y hy hplace => ?_, ih (i + 1)⟩
      obtain ⟨j, t', c', -, rfl⟩ := mem_childrenFrom_iff.mp hy
      obtain ⟨hi, -⟩ := List.cons.inj hplace
      omega
    | text s => exact ih (i + 1)
    | comment s => exact ih (i + 1)

theorem pairwise_children (e : Element) : e.children.Pairwise fun x y => x.place ≠ y.place :=
  pairwise_childrenFrom e 0 e.nodes

theorem nodup_children (e : Element) : e.children.Nodup :=
  (pairwise_children e).imp fun hplace h => hplace (congrArg Element.place h)

/-- What is right below an element is smaller than it. -/
theorem IsChild.sizeOf_lt (h : IsChild e x) : sizeOf x.nodes < sizeOf e.nodes := by
  obtain ⟨i, t, c, hi, rfl⟩ := isChild_iff.mp h
  have hlt := List.sizeOf_lt_of_mem (List.mem_of_getElem? hi)
  have : sizeOf c < sizeOf (Node.element t c) := by
    rw [Node.element.sizeOf_spec]
    omega
  exact Nat.lt_trans this hlt

/-- What holds of an element if it holds of all that is right below it, holds of every element. -/
theorem induction_below {P : Element → Prop} (h : ∀ e, (∀ x, IsChild e x → P x) → P e)
    (e : Element) : P e :=
  h e fun x _ => induction_below h x
termination_by sizeOf e.nodes
decreasing_by
  next hx => exact hx.sizeOf_lt

/-! ### Anywhere below -/

theorem descendantsFrom_eq (e : Element) (i : Nat) (nodes : List Node) :
    descendantsFrom e i nodes = (childrenFrom e i nodes).flatMap fun x => x :: x.descendants := by
  induction nodes generalizing i with
  | nil => simp [descendantsFrom, childrenFrom]
  | cons n r ih =>
    rw [descendantsFrom, ih]
    cases n with
    | element t c =>
      rw [withDescendants, childrenFrom, List.flatMap_cons]
      rfl
    | text s => simp [withDescendants, childrenFrom]
    | comment s => simp [withDescendants, childrenFrom]

/-- Below an element are its children, each with what is below it. -/
theorem descendants_eq (e : Element) :
    e.descendants = e.children.flatMap fun x => x :: x.descendants :=
  descendantsFrom_eq e 0 e.nodes

theorem mem_descendants_iff : x ∈ e.descendants ↔ TransGen IsChild e x := by
  induction e using induction_below generalizing x with
  | h e ih =>
    rw [descendants_eq, List.mem_flatMap, TransGen.head'_iff]
    refine exists_congr fun y => and_congr_right fun hy => ?_
    rw [List.mem_cons, ih y hy, Relation.reflTransGen_iff_eq_or_transGen]

theorem mem_cons_descendants_iff : x ∈ e :: e.descendants ↔ ReflTransGen IsChild e x := by
  rw [List.mem_cons, mem_descendants_iff, Relation.reflTransGen_iff_eq_or_transGen]

theorem suffix_place (h : ReflTransGen IsChild e x) : e.place <:+ x.place := by
  induction h with
  | refl => exact List.suffix_rfl
  | tail _ hx ih =>
    obtain ⟨i, hi⟩ := hx.place
    rw [hi]
    exact ih.trans (List.suffix_cons i _)

/-- What is below an element has a longer place. -/
theorem length_place_lt (h : TransGen IsChild e x) : e.place.length < x.place.length := by
  obtain ⟨y, hy, hx⟩ := TransGen.tail'_iff.mp h
  obtain ⟨i, hi⟩ := hx.place
  have := (suffix_place hy).length_le
  rw [hi, List.length_cons]
  omega

/-- Two children of an element with something below both are one. -/
theorem place_eq_of_reached {z : Element} (hx : IsChild e x) (hy : IsChild e y)
    (hxz : x.place <:+ z.place) (hyz : y.place <:+ z.place) : x.place = y.place := by
  obtain ⟨i, hi⟩ := hx.place
  obtain ⟨j, hj⟩ := hy.place
  have hsuffix : x.place <:+ y.place :=
    List.suffix_of_suffix_length_le hxz hyz (by simp [hi, hj])
  exact hsuffix.eq_of_length (by simp [hi, hj])

theorem nodup_cons_descendants (e : Element) : (e :: e.descendants).Nodup := by
  induction e using induction_below with
  | h e ih =>
    refine List.nodup_cons.mpr ⟨fun he => ?_, ?_⟩
    · exact Nat.lt_irrefl _ (length_place_lt (mem_descendants_iff.mp he))
    · rw [descendants_eq, List.nodup_flatMap]
      refine ⟨ih, (pairwise_children e).imp_of_mem fun {x y} hx hy hne z hzx hzy => hne ?_⟩
      exact place_eq_of_reached hx hy (suffix_place (mem_cons_descendants_iff.mp hzx))
        (suffix_place (mem_cons_descendants_iff.mp hzy))

theorem nodup_descendants (e : Element) : e.descendants.Nodup := (nodup_cons_descendants e).of_cons

/-! ### Places on a page -/

theorem OnPage.parent? (h : OnPage tag nodes x) (hx : x.parent? = some e) :
    OnPage tag nodes e ∧ IsChild e x := by
  cases h with
  | refl => cases hx
  | tail hp hchild =>
    obtain rfl := Option.some.inj (hchild.parent?.symm.trans hx)
    exact ⟨hp, hchild⟩

/-- Of what is reached from one element, an element is known by its place. -/
theorem eq_of_place_eq (hx : ReflTransGen IsChild e x) (hy : ReflTransGen IsChild e y)
    (h : x.place = y.place) : x = y := by
  -- what is below the element has a longer place than it
  have hlength {z : Element} (hz : TransGen IsChild e z) : z.place ≠ e.place := fun hplace =>
    Nat.ne_of_gt (length_place_lt hz) (congrArg List.length hplace)
  induction hx generalizing y with
  | refl =>
    rcases Relation.reflTransGen_iff_eq_or_transGen.mp hy with rfl | hy
    · rfl
    · exact absurd h.symm (hlength hy)
  | tail hp hx ih =>
    cases hy with
    | refl => exact absurd h (hlength (.tail' hp hx))
    | tail hq hy =>
      obtain ⟨i, hi⟩ := hx.place
      obtain ⟨j, hj⟩ := hy.place
      rw [hi, hj] at h
      obtain rfl := ih hq (List.cons.inj h).2
      exact hx.eq_of_place_eq hy (hi.trans (h.trans hj.symm))

/-- **An element of a page** is known by its place. -/
theorem OnPage.eq_of_place_eq (hx : OnPage tag nodes x) (hy : OnPage tag nodes y)
    (h : x.place = y.place) : x = y :=
  Element.eq_of_place_eq hx hy h

/-! ### What is right below one element -/

/-- The place of the element above. -/
def parentPlace? (e : Element) : Option (List Nat) := e.parent?.map place

theorem IsChild.parentPlace? (h : IsChild e x) : x.parentPlace? = some e.place := by
  rw [Element.parentPlace?, h.parent?, Option.map_some]

theorem length_lt_of_parentPlace? {place : List Nat} (h : x.parentPlace? = some place) :
    place.length < x.place.length := by
  cases x with
  | top t c => cases h
  | child p i t c =>
    obtain rfl : p.place = place := Option.some.inj h
    exact Nat.lt_succ_self _

/-- The element above what is below an element has a place that begins, seen from the top, like that
of the element. -/
theorem suffix_of_parentPlace? {place : List Nat} (h : TransGen IsChild e x)
    (hplace : x.parentPlace? = some place) : e.place <:+ place := by
  obtain ⟨p, hp, hx⟩ := TransGen.tail'_iff.mp h
  obtain rfl := Option.some.inj (hx.parentPlace?.symm.trans hplace)
  exact suffix_place hp

theorem flatMap_eq_of_forall_ne {α β : Type} {l : List α} {f : α → List β} {a : α} (hl : l.Nodup)
    (ha : a ∈ l) (h : ∀ b ∈ l, b ≠ a → f b = []) : l.flatMap f = f a := by
  obtain ⟨before, after, rfl⟩ := List.append_of_mem ha
  obtain ⟨-, hafter, hdisjoint⟩ := List.nodup_append.mp hl
  have hbefore : before.flatMap f = [] := List.flatMap_eq_nil_iff.mpr fun b hb =>
    h b (by simp [hb]) (hdisjoint b hb a List.mem_cons_self)
  have hrest : after.flatMap f = [] := List.flatMap_eq_nil_iff.mpr fun b hb =>
    h b (by simp [hb]) fun hba => (List.nodup_cons.mp hafter).1 (hba ▸ hb)
  rw [List.flatMap_append, List.flatMap_cons, hbefore, hrest, List.nil_append, List.append_nil]

/-- **Of all that is below an element**, what is right below one is its children. -/
theorem filter_descendants (hn : ReflTransGen IsChild e n) :
    e.descendants.filter (fun x => x.parentPlace? == some n.place) = n.children := by
  induction e using induction_below with
  | h e ih =>
    rw [descendants_eq, List.filter_flatMap]
    rcases Relation.reflTransGen_iff_eq_or_transGen.mp hn with rfl | hbelow
    · -- of each child with what is below it, the child alone
      rw [List.flatMap_congr fun x hx => ?_, List.flatMap_singleton']
      rw [List.filter_cons_of_pos (by simp [IsChild.parentPlace? hx]), List.filter_eq_nil_iff.mpr]
      intro z hz hplace
      have hsuffix := suffix_of_parentPlace? (mem_descendants_iff.mp hz) (by simpa using hplace)
      exact Nat.not_lt_of_le hsuffix.length_le (length_place_lt (.single hx))
    · obtain ⟨y, hy, hyn⟩ := TransGen.head'_iff.mp hbelow
      have hdrop : ∀ z, IsChild e z → ∀ l : List Element,
          (z :: l).filter (fun x => x.parentPlace? == some n.place) =
            l.filter fun x => x.parentPlace? == some n.place := by
        intro z hz l
        refine List.filter_cons_of_neg fun hplace => ?_
        rw [hz.parentPlace?, beq_iff_eq, Option.some.injEq] at hplace
        exact Nat.ne_of_lt (length_place_lt hbelow) (congrArg _ hplace)
      rw [flatMap_eq_of_forall_ne (nodup_children e) hy, hdrop y hy, ih y hy hyn]
      intro z hz hzy
      rw [hdrop z hz, List.filter_eq_nil_iff]
      intro w hw hplace
      -- the element above would be below two children
      have hsuffix := suffix_of_parentPlace? (mem_descendants_iff.mp hw) (by simpa using hplace)
      have hplaces := place_eq_of_reached hz hy hsuffix (suffix_place hyn)
      exact hzy (IsChild.eq_of_place_eq hz hy hplaces)

end Scrape.Html.Element
