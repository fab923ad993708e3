import Mathlib.Data.Set.Defs
import Scrape.Proofs.Html.Element
import Scrape.Proofs.XPath.Reading
import Scrape.XPath.Select

/-!
# XPath — Meaning

What a location path means, without lists of contexts.  A path leads from a set of nodes to a set of
nodes, one step after the other (`Path.nodes`), and a step leads from one node to those that the
relation `Leads` says.  The step after `//` is one to the children of what is reached by going down
any number of times, none included; so a place in a predicate counts among the children of one
node.

Main statement (`Predicate.keep_eq_selected`): the elements that a predicate keeps of a group are
those of which it holds at their place.
-/

namespace Scrape.XPath

open Relation (ReflTransGen)
open Scrape.Html (Element)

/-! ### Nodes -/

/-- A node that a path comes to: what is above the context element, or an element. -/
inductive Spot where
  | document
  | element (e : Element)

namespace Spot

/-- The elements right below a node.  What is above the context element has it alone. -/
def children (context : Element) : Spot → List Element
  | document  => [context]
  | element e => e.children

/-- The element above a node. -/
def parent? : Spot → Option Element
  | document  => none
  | element e => e.parent?

/-- The second node is reached from the first by going down, any number of times. -/
def Reaches (context : Element) : Spot → Spot → Prop :=
  ReflTransGen fun a b => ∃ x ∈ a.children context, b = .element x

variable {context e : Element} {a b : Spot}

theorem reaches_element_iff :
    Reaches context (.element e) b ↔ ∃ n, b = .element n ∧ ReflTransGen Element.IsChild e n := by
  constructor
  · intro h
    induction h with
    | refl => exact ⟨e, rfl, .refl⟩
    | tail _ hb ih =>
      obtain ⟨n, rfl, hn⟩ := ih
      obtain ⟨x, hx, rfl⟩ := hb
      exact ⟨x, rfl, hn.tail hx⟩
  · rintro ⟨n, rfl, hn⟩
    induction hn with
    | refl => exact .refl
    | tail _ hx ih => exact ih.tail ⟨_, hx, rfl⟩

theorem reaches_document_iff :
    Reaches context .document b ↔ b = .document ∨ Reaches context (.element context) b := by
  constructor
  · intro h
    cases h using ReflTransGen.head_induction_on with
    | refl => exact .inl rfl
    | head hb h =>
      obtain ⟨x, hx, rfl⟩ := hb
      obtain rfl := List.mem_singleton.mp hx
      exact .inr h
  · rintro (rfl | h)
    · exact .refl
    · exact .head ⟨context, List.mem_singleton_self context, rfl⟩ h

end Spot

/-! ### Predicates -/

/-- Whether a predicate holds of an element at a place, counted from one, among some number of
elements. -/
def Predicate.holdsAt (place size : Nat) (e : Element) : Predicate → Bool
  | position n => place == n
  | last       => place == size
  | p          => p.passes e

/-- The elements of a list of which a predicate holds at their places. -/
def Predicate.selected (l : List Element) (p : Predicate) : List Element :=
  (l.zipIdx 1).filterMap fun x => if p.holdsAt x.2 l.length x.1 then some x.1 else none

/-- The elements of a list that are left by predicates, each of which counts those that the ones
before it have left. -/
def remaining (predicates : List Predicate) (l : List Element) : List Element :=
  predicates.foldl Predicate.selected l

theorem filterMap_zipIdx_of_place (l : List Element) (n start : Nat) :
    ((l.zipIdx start).filterMap fun x => if x.2 == n then some x.1 else none) =
      if start ≤ n then l[n - start]?.toList else [] := by
  induction l generalizing start with
  | nil => simp
  | cons e l ih =>
    rw [List.zipIdx_cons, List.filterMap_cons, ih]
    by_cases hstart : start = n
    · subst hstart
      simp [show ¬ start + 1 ≤ start by omega]
    · by_cases hle : start ≤ n
      · have hsub : n - start = n - (start + 1) + 1 := by omega
        simp [hstart, hle, hsub, show start + 1 ≤ n by omega]
      · simp [hstart, hle, show ¬ start + 1 ≤ n by omega]

theorem filterMap_zipIdx_of_fst (l : List Element) (q : Element → Bool) (start : Nat) :
    ((l.zipIdx start).filterMap fun x => if q x.1 then some x.1 else none) = l.filter q := by
  induction l generalizing start with
  | nil => rfl
  | cons e l ih =>
    rw [List.zipIdx_cons, List.filterMap_cons, ih, List.filter_cons]
    cases q e <;> rfl

/-- **What a predicate keeps of a group** is that of which it holds, with places counted from
one. -/
theorem Predicate.keep_eq_selected {p : Predicate} (hp : p ≠ .position 0) (group : List Element) :
    p.keep group = p.selected group := by
  cases p with
  | position n =>
    have hn : 1 ≤ n := Nat.one_le_iff_ne_zero.mpr fun h => hp (congrArg _ h)
    have h := filterMap_zipIdx_of_place group n 1
    rw [if_pos hn] at h
    exact h.symm
  | last =>
    have h := filterMap_zipIdx_of_place group group.length 1
    refine Eq.trans ?_ h.symm
    rw [keep, List.getLast?_eq_getElem?]
    cases group with
    | nil => rfl
    | cons e l => rw [if_pos (by simp)]
  | hasAttr n => exact (filterMap_zipIdx_of_fst group _ 1).symm
  | equals op s => exact (filterMap_zipIdx_of_fst group _ 1).symm
  | contains op s => exact (filterMap_zipIdx_of_fst group _ 1).symm
  | startsWith op s => exact (filterMap_zipIdx_of_fst group _ 1).symm

theorem Step.keep_eq_remaining {step : Step} (h : step.CountsFromOne)
    (group : List Element) : step.keep group = remaining step.predicates group := by
  rw [Step.keep, remaining]
  rw [Step.CountsFromOne] at h
  generalize step.predicates = predicates at h
  induction predicates generalizing group with
  | nil => rfl
  | cons p ps ih =>
    rw [List.mem_cons, not_or] at h
    rw [List.foldl_cons, List.foldl_cons, Predicate.keep_eq_selected (Ne.symm h.1), ih _ h.2]

theorem mem_of_mem_remaining {predicates : List Predicate} {l : List Element} {e : Element}
    (h : e ∈ remaining predicates l) : e ∈ l := by
  rw [remaining] at h
  induction predicates generalizing l with
  | nil => exact h
  | cons p ps ih =>
    obtain ⟨x, hx, hsome⟩ := List.mem_filterMap.mp (ih h)
    split at hsome
    · obtain rfl := Option.some.inj hsome
      rw [List.fst_eq_of_mem_zipIdx hx]
      exact List.getElem_mem _
    · cases hsome

/-! ### Steps and paths -/

/-- From which node to which a step to elements leads. -/
inductive Leads (context : Element) : Step → Spot → Spot → Prop where
  /-- To the node itself. -/
  | self {a : Spot} : Leads context ⟨.child, .self, []⟩ a a
  /-- To the element above. -/
  | parent {a : Spot} {p : Element} (h : a.parent? = some p) :
      Leads context ⟨.child, .parent, []⟩ a (.element p)
  /-- To a child that passes the test and is left by the predicates. -/
  | child {a : Spot} {test : Test} {predicates : List Predicate} {x : Element}
      (h : x ∈ remaining predicates ((a.children context).filter fun y => test.passes y)) :
      Leads context ⟨.child, test, predicates⟩ a (.element x)
  /-- To such a child of a node that is reached by going down. -/
  | descendant {a n : Spot} {test : Test} {predicates : List Predicate} {x : Element}
      (hn : a.Reaches context n)
      (h : x ∈ remaining predicates ((n.children context).filter fun y => test.passes y)) :
      Leads context ⟨.descendant, test, predicates⟩ a (.element x)

/-- The nodes to which a step leads from a set of nodes. -/
def Step.image (context : Element) (spots : Set Spot) (step : Step) : Set Spot :=
  { b | ∃ a ∈ spots, Leads context step a b }

/-- The nodes to which a path leads from a context element, or from above it. -/
def Path.nodes (path : Path) (context : Element) : Set Spot :=
  path.steps.foldl (Step.image context) { if path.absolute then .document else .element context }

/-- A step to elements: to those of a name or to all, with places counted from one, or without
predicates to the node itself or to the element above. -/
def Step.IsElementStep (step : Step) : Prop :=
  match step.test with
  | .name _ => step.CountsFromOne
  | .any    => step.CountsFromOne
  | .self   => step.axis = .child ∧ step.predicates = []
  | .parent => step.axis = .child ∧ step.predicates = []
  | .text   => False
  | .attr _ => False

/-- A path of steps to elements, which does not stay above the context element. -/
structure Path.IsElementPath (path : Path) : Prop where
  steps : ∀ step ∈ path.steps, step.IsElementStep
  moves : path.absolute = true → ∀ step, path.steps.head? = some step → step.test ≠ .self

end Scrape.XPath
