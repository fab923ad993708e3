import Scrape.Proofs.Html.Element

/-!
# Html — Text nodes

The texts of an element are strings, which do not say where they stand.  Here each is a text node:
the element right above it, its index there and the string.  The lists of text nodes have the texts
of the element as their strings (`map_ownTextNodes`, `map_textNodes`), hold what is right below the
element or anywhere below it (`mem_ownTextNodes_iff`, `mem_textNodes_iff`), and hold it once
(`nodup_ownTextNodes`, `nodup_textNodes`).
-/

namespace Scrape.Html

open Relation (ReflTransGen)
open Element (IsChild)

/-- A text at its place: below an element, at an index. -/
structure TextNode where
  parent : Element
  index : Nat
  text : String

namespace TextNode

/-- The node is a text of its parent. -/
def Stands (t : TextNode) : Prop := t.parent.nodes[t.index]? = some (.text t.text)

/-- The place of the node: its index and those of the elements above it. -/
def place (t : TextNode) : List Nat := t.index :: t.parent.place

end TextNode

/-- The string of a node that is a text. -/
def Node.text? : Node → Option String
  | .text s => some s
  | _       => none

namespace Element

/-- The text nodes among nodes, which are children of `e` from an index on. -/
def ownTextNodesFrom (e : Element) : Nat → List Node → List TextNode
  | _, []           => []
  | i, .text s :: r => ⟨e, i, s⟩ :: ownTextNodesFrom e (i + 1) r
  | i, _ :: r       => ownTextNodesFrom e (i + 1) r

/-- The text nodes right below the element. -/
def ownTextNodes (e : Element) : List TextNode := ownTextNodesFrom e 0 e.nodes

mutual

/-- The text nodes of a node, which is the child of `e` at an index, and of all below it, in the
order of the page. -/
def textNodesAt (e : Element) (i : Nat) : Node → List TextNode
  | .text s      => [⟨e, i, s⟩]
  | .comment _   => []
  | .element t c => textNodesFrom (.child e i t c) 0 c

/-- The text nodes of nodes, which are children of `e` from an index on, and of all below them. -/
def textNodesFrom (e : Element) (i : Nat) : List Node → List TextNode
  | []     => []
  | n :: r => textNodesAt e i n ++ textNodesFrom e (i + 1) r

end

/-- The text nodes anywhere below the element, in the order of the page. -/
def textNodes (e : Element) : List TextNode := textNodesFrom e 0 e.nodes

variable {e x : Element} {nodes : List Node} {t : TextNode} {i : Nat}

/-! ### The strings -/

theorem map_ownTextNodesFrom (e : Element) (i : Nat) (nodes : List Node) :
    (ownTextNodesFrom e i nodes).map TextNode.text = nodes.filterMap Node.text? := by
  induction nodes generalizing i with
  | nil => rfl
  | cons n r ih =>
    cases n with
    | text s => exact congrArg (s :: ·) (ih (i + 1))
    | element t c => exact ih (i + 1)
    | comment s => exact ih (i + 1)

theorem map_ownTextNodes (e : Element) : e.ownTextNodes.map TextNode.text = e.ownTexts := by
  rw [ownTextNodes, map_ownTextNodesFrom, ownTexts]
  exact List.filterMap_congr fun n _ => by cases n <;> rfl

mutual

theorem map_textNodesAt (e : Element) (i : Nat) :
    ∀ n : Node, (textNodesAt e i n).map TextNode.text = n.texts
  | .text s      => rfl
  | .comment s   => rfl
  | .element t c => by
    rw [textNodesAt, Node.texts]
    exact map_textNodesFrom _ 0 c

theorem map_textNodesFrom (e : Element) (i : Nat) :
    ∀ nodes : List Node, (textNodesFrom e i nodes).map TextNode.text = textsOf nodes
  | []     => rfl
  | n :: r => by
    rw [textNodesFrom, List.map_append, textsOf, map_textNodesAt e i n, map_textNodesFrom e _ r]

end

theorem map_textNodes (e : Element) : e.textNodes.map TextNode.text = textsOf e.nodes :=
  map_textNodesFrom e 0 e.nodes

/-! ### Right below -/

theorem mem_ownTextNodesFrom_iff :
    t ∈ ownTextNodesFrom e i nodes ↔ ∃ j s, nodes[j]? = some (.text s) ∧ t = ⟨e, i + j, s⟩ := by
  induction nodes generalizing i with
  | nil => simp [ownTextNodesFrom]
  | cons n r ih =>
    have hnext (j : Nat) : i + 1 + j = i + (j + 1) := Nat.add_right_comm i 1 j
    rw [← Nat.or_exists_add_one]
    cases n <;> simp [ownTextNodesFrom, ih, hnext]

theorem mem_ownTextNodes_iff : t ∈ e.ownTextNodes ↔ t.Stands ∧ t.parent = e := by
  refine mem_ownTextNodesFrom_iff.trans ?_
  constructor
  · rintro ⟨j, s, hj, rfl⟩
    exact ⟨by simpa [TextNode.Stands] using hj, rfl⟩
  · rintro ⟨h, rfl⟩
    exact ⟨t.index, t.text, h, by rw [Nat.zero_add]⟩

theorem nodup_ownTextNodes (e : Element) : e.ownTextNodes.Nodup := by
  have h (i : Nat) (nodes : List Node) : (ownTextNodesFrom e i nodes).Nodup := by
    induction nodes generalizing i with
    | nil => exact .nil
    | cons n r ih =>
      cases n with
      | text s =>
        refine List.nodup_cons.mpr ⟨fun hmem => ?_, ih (i + 1)⟩
        obtain ⟨j, s', -, heq⟩ := mem_ownTextNodesFrom_iff.mp hmem
        have : i = i + 1 + j := congrArg TextNode.index heq
        omega
      | element t c => exact ih (i + 1)
      | comment s => exact ih (i + 1)
  exact h 0 e.nodes

/-! ### Anywhere below -/

theorem mem_textNodesFrom_iff :
    t ∈ textNodesFrom e i nodes ↔
      t ∈ ownTextNodesFrom e i nodes ∨ ∃ x ∈ childrenFrom e i nodes, t ∈ x.textNodes := by
  induction nodes generalizing i with
  | nil => simp [textNodesFrom, ownTextNodesFrom, childrenFrom]
  | cons n r ih =>
    rw [textNodesFrom, List.mem_append, ih]
    cases n with
    | text s => simp [textNodesAt, ownTextNodesFrom, childrenFrom, or_assoc]
    | comment s => simp [textNodesAt, ownTextNodesFrom, childrenFrom]
    | element tag c =>
      have hat : textNodesAt e i (.element tag c) = (Element.child e i tag c).textNodes := rfl
      simp [hat, ownTextNodesFrom, childrenFrom, or_left_comm]

/-- The text nodes below an element are those right below it and those below its children. -/
theorem mem_textNodes_step_iff :
    t ∈ e.textNodes ↔ t ∈ e.ownTextNodes ∨ ∃ x, IsChild e x ∧ t ∈ x.textNodes :=
  mem_textNodesFrom_iff

theorem mem_textNodes_iff : t ∈ e.textNodes ↔ t.Stands ∧ ReflTransGen IsChild e t.parent := by
  induction e using induction_below with
  | h e ih =>
    rw [mem_textNodes_step_iff, mem_ownTextNodes_iff, ReflTransGen.cases_head_iff]
    constructor
    · rintro (⟨hstands, rfl⟩ | ⟨x, hx, ht⟩)
      · exact ⟨hstands, .inl rfl⟩
      · obtain ⟨hstands, hbelow⟩ := (ih x hx).mp ht
        exact ⟨hstands, .inr ⟨x, hx, hbelow⟩⟩
    · rintro ⟨hstands, rfl | ⟨x, hx, hbelow⟩⟩
      · exact .inl ⟨hstands, rfl⟩
      · exact .inr ⟨x, hx, (ih x hx).mpr ⟨hstands, hbelow⟩⟩

/-- A text node below an element is below one of its nodes, whose index its place shows. -/
theorem suffix_place_of_mem_textNodesFrom (h : t ∈ textNodesFrom e i nodes) :
    ∃ j, i ≤ j ∧ j :: e.place <:+ t.place := by
  rcases mem_textNodesFrom_iff.mp h with h | ⟨x, hx, h⟩
  · obtain ⟨j, s, -, rfl⟩ := mem_ownTextNodesFrom_iff.mp h
    exact ⟨i + j, Nat.le_add_right i j, List.suffix_rfl⟩
  · obtain ⟨j, tag, c, -, rfl⟩ := mem_childrenFrom_iff.mp hx
    obtain ⟨-, hbelow⟩ := mem_textNodes_iff.mp h
    exact ⟨i + j, Nat.le_add_right i j, (suffix_place hbelow).trans (List.suffix_cons t.index _)⟩

theorem suffix_place_of_mem_textNodesAt {n : Node} (h : t ∈ textNodesAt e i n) :
    i :: e.place <:+ t.place := by
  cases n with
  | text s =>
    obtain rfl := List.mem_singleton.mp h
    exact List.suffix_rfl
  | comment s => cases h
  | element tag c =>
    obtain ⟨-, hbelow⟩ := mem_textNodes_iff.mp (show t ∈ (Element.child e i tag c).textNodes from h)
    exact (suffix_place hbelow).trans (List.suffix_cons t.index _)

theorem disjoint_textNodesAt (e : Element) (i : Nat) (n : Node) (r : List Node) :
    (textNodesAt e i n).Disjoint (textNodesFrom e (i + 1) r) := by
  intro t hat hfrom
  -- the place of the node would show two indices below the element
  obtain ⟨j, hj, hsuffix⟩ := suffix_place_of_mem_textNodesFrom hfrom
  have heq := (List.suffix_of_suffix_length_le (suffix_place_of_mem_textNodesAt hat) hsuffix
    (by simp)).eq_of_length (by simp)
  have : i = j := (List.cons.inj heq).1
  omega

mutual

theorem nodup_textNodesAt (e : Element) (i : Nat) : ∀ n : Node, (textNodesAt e i n).Nodup
  | .text s      => List.nodup_singleton _
  | .comment s   => .nil
  | .element t c => by
    rw [textNodesAt]
    exact nodup_textNodesFrom _ 0 c

theorem nodup_textNodesFrom (e : Element) (i : Nat) :
    ∀ nodes : List Node, (textNodesFrom e i nodes).Nodup
  | []     => .nil
  | n :: r => by
    rw [textNodesFrom]
    exact (nodup_textNodesAt e i n).append (nodup_textNodesFrom e _ r)
      (disjoint_textNodesAt e i n r)

end

theorem nodup_textNodes (e : Element) : e.textNodes.Nodup := nodup_textNodesFrom e 0 e.nodes

end Element

end Scrape.Html
