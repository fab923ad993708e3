import Scrape.Document
import Scrape.Rule.Composite
import Scrape.Rule.Mode
import Scrape.XPath.Parser

/-!
# XPath — Select

What a query selects from a context element (`Query.select`), and what a rule in this mode gives
below a node (`elements`, `strings`).  Places count among the elements that have one parent.
-/

namespace Scrape.XPath

open Scrape.Html (Element)
open Scrape.Rule (composed withoutTag)

/-! ### Predicates -/

/-- The text that an operand stands for in an element. -/
def Operand.value? (e : Element) : Operand → Option String
  | attr n  => e.attr? n
  | ownText => some (Text.trimmed (String.join e.ownTexts))
  | value   => some (Text.singleSpaced e.text)

/-- Whether an element passes a predicate that is not about its place. -/
def Predicate.passes (e : Element) : Predicate → Bool
  | position _      => true
  | last            => true
  | hasAttr n       => (e.attr? n).isSome
  | equals op s     => op.value? e == some s
  | contains op s   => (op.value? e).any fun v => Text.contains s.toList v.toList
  | startsWith op s => (op.value? e).any fun v => Text.startsWith s.toList v.toList

/-- The elements of a group that a predicate keeps. -/
def Predicate.keep (group : List Element) : Predicate → List Element
  | position n => (group[n - 1]?).toList
  | last       => group.getLast?.toList
  | p          => group.filter fun e => p.passes e

/-- The elements of a group that all predicates of a step keep, one after the other. -/
def Step.keep (step : Step) (group : List Element) : List Element :=
  step.predicates.foldl Predicate.keep group

/-! ### Steps -/

/-- Whether an element passes a test on its name. -/
def Test.passes (e : Element) : Test → Bool
  | name n => Text.equalIgnoringCase e.name.toList n.toList
  | any    => true
  | _      => false

/-- The elements in groups of one parent, in the order in which the parents come first. -/
def byParent (found : List Element) : List (List Element) :=
  let place (e : Element) : Option (List Nat) := e.parent?.map Element.place
  let add (groups : List (Option (List Nat) × List Element)) (e : Element) :=
    if groups.any fun g => g.1 == place e then
      groups.map fun g => if g.1 == place e then (g.1, e :: g.2) else g
    else groups ++ [(place e, [e])]
  (found.foldl add []).map fun g => g.2.reverse

/-- The elements that a step leads to from a context element, or from above it, by its axis. -/
def reached (above : Bool) (axis : Axis) (e : Element) : List Element :=
  match axis, above with
  | .child,      true  => [e]
  | .child,      false => e.children
  | .descendant, true  => e :: e.descendants
  | .descendant, false => e.descendants

/-- The texts that a step leads to. -/
def reachedTexts (above : Bool) (axis : Axis) (e : Element) : List String :=
  match axis with
  | .child      => if above then [] else e.ownTexts
  | .descendant => Html.textsOf e.nodes

/-- The elements whose attribute a step takes. -/
def owners (above : Bool) (axis : Axis) (e : Element) : List Element :=
  match axis with
  | .child      => if above then [] else [e]
  | .descendant => reached above .descendant e

/-- The groups of elements that pass the test of a step. -/
def Step.groups (step : Step) (above : Bool) (e : Element) : List (List Element) :=
  let found := (reached above step.axis e).filter fun x => step.test.passes x
  match step.axis with
  | .child      => [found]
  | .descendant => byParent found

/-- What a step gives from an element, or from above it. -/
def Step.from (step : Step) (above : Bool) (e : Element) : List Item :=
  match step.test with
  | .text   => (reachedTexts above step.axis e).map .text
  | .attr n => ((owners above step.axis e).filterMap fun o => o.attr? n).map .text
  | .self   => if above then [.root e] else (step.keep [e]).map .element
  | .parent => if above then [] else (step.keep e.parent?.toList).map .element
  | _       => ((step.groups above e).flatMap step.keep).map .element

/-- Whether an item is an element at a place. -/
def Item.isAt (e : Element) : Item → Bool
  | element x => x.samePlace e
  | _         => false

/-- The items with each element kept where it comes first. -/
def distinct (items : List Item) : List Item :=
  (items.foldl (fun kept item =>
    match item with
    | .element e => if kept.any (Item.isAt e) then kept else item :: kept
    | other      => other :: kept) []).reverse

/-- What a step gives from several items; from texts it gives nothing. -/
def Step.apply (step : Step) (items : List Item) : List Item :=
  distinct (items.flatMap fun
    | .root e    => step.from true e
    | .element e => step.from false e
    | .text _    => [])

/-- What a path leads to from a context element. -/
def Path.evaluate (path : Path) (context : Element) : List Item :=
  path.steps.foldl (fun items step => step.apply items)
    [if path.absolute then .root context else .element context]

/-! ### Queries -/

/-- The place of an item that is an element, or of the element below it. -/
def Item.place? : Item → Option (List Nat)
  | root e    => some e.place
  | element e => some e.place
  | text _    => none

/-- What a query leads to from a context element, path by path, each place once. -/
def Query.select (q : Query) (context : Element) : List Item :=
  let found := q.paths.flatMap fun p => p.evaluate context
  (found.foldl (fun (kept : List Item) item =>
    if item.place?.isSome && kept.any fun k => k.place? == item.place? then kept
    else item :: kept) []).reverse

/-- The text of an item. -/
def Item.value : Item → String
  | root e    => Text.singleSpaced e.text
  | element e => Text.singleSpaced e.text
  | text s    => Text.trimmed s

/-- What a rule without operators selects below a node: nothing below a value of JSON, and nothing
if the rule is no query. -/
def leafItems (n : Node) (rule : List Char) : List Item :=
  let s := withoutTag rule
  match n with
  | .json ..    => []
  | .element e =>
    if s.isEmpty then []
    else
      match Query.parse s with
      | .ok q    => q.select e
      | .error _ => []

/-- The elements that a rule without operators selects below a node. -/
def leafElements (n : Node) (rule : List Char) : List Node :=
  (leafItems n rule).filterMap fun
    | .element e => some (.element e)
    | _          => none

/-- The elements that a rule selects below a node. -/
def elements (n : Node) (rule : List Char) : List Node := composed (leafElements n) rule

/-- The texts of what a rule without operators selects below a node, without empty ones. -/
def leafStrings (n : Node) (rule : List Char) : List String :=
  ((leafItems n rule).map Item.value).filter fun s => !s.isEmpty

/-- The texts of what a rule selects below a node, without empty ones. -/
def strings (n : Node) (rule : List Char) : List String := composed (leafStrings n) rule

/-- The text that a rule gives: its texts, one a line. -/
def text (n : Node) (rule : List Char) : String := "\n".intercalate (strings n rule)

end Scrape.XPath
