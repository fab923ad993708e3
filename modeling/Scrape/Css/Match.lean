import Scrape.Css.Parser
import Scrape.Html.Node
import Scrape.Text.Find

/-!
# Css — Match

Which elements meet a selector.  An element is looked at from its place in the page, so that a
selector sees what is above the element the search starts from.
-/

namespace Scrape.Css

open Scrape.Html (Element)

/-- What a selector refers to besides the element: where the search starts, and the anchor of a
condition on what is below or beside. -/
structure Frame where
  scope : Element
  anchor? : Option Element

/-- The elements that a combinator may lead to from the element after it. -/
def Combinator.sources (e : Element) : Combinator → List Element
  | descendant => e.ancestors
  | child      => e.parent?.toList
  | next       => e.siblingsBefore.head?.toList
  | later      => e.siblingsBefore

/-! ### Attributes -/

/-- Whether the value of an attribute compares to another, letter by letter. -/
def Comparison.compares (value : List Char) (wanted : List Char) : Comparison → Bool
  | equals   => value == wanted
  | includes =>
    !wanted.isEmpty && !wanted.any isSpace
      && (value.splitOnP isSpace).contains wanted
  | dash     => value == wanted || Text.startsWith (wanted ++ ['-']) value
  | begins   => !wanted.isEmpty && Text.startsWith wanted value
  | ends     => !wanted.isEmpty && Text.endsWith wanted value
  | contains => !wanted.isEmpty && Text.contains wanted value

/-- Whether a value passes a test, in an element of the page's own vocabulary or in another. -/
def ValueTest.passes (test : ValueTest) (isPage : Bool) (value : String) : Bool :=
  let caseless := match test.caseRule with
    | .exact        => false
    | .ignored      => true
    | .byVocabulary => isPage
  if caseless then
    test.comparison.compares (Text.asciiLower value.toList) (Text.asciiLower test.value.toList)
  else test.comparison.compares value.toList test.value.toList

/-- Whether an element is of the page's own vocabulary. -/
def isPage (e : Element) : Bool := e.tag.space == .html

/-- A name as it is looked for in an element: small in the page's own vocabulary. -/
def nameIn (e : Element) (name : String) : String := if isPage e then lowerName name else name

/-- Whether an element has an attribute that passes a test. -/
def AttributeTest.passes (test : AttributeTest) (e : Element) : Bool :=
  e.tag.attrs.any fun a =>
    (test.anySpace || a.space == .plain) && a.name == nameIn e test.name
      && match test.value? with
        | some v => v.passes (isPage e) a.value
        | none   => true

/-- Whether an element has an id. -/
def hasId (id : String) (e : Element) : Bool :=
  (e.tag.attrs.find? fun a => a.name == "id").any fun a => a.value == id

/-- The classes of an element. -/
def classes (e : Element) : List String :=
  (e.tag.attrs.filter fun a => a.name == "class").flatMap fun a =>
    ((a.value.toList.splitOnP isSpace).filter fun w => !w.isEmpty).map String.ofList

/-! ### Places -/

/-- Whether two elements have the same name in the same vocabulary. -/
def sameType (a b : Element) : Bool := a.tag.space == b.tag.space && a.name == b.name

/-- The greatest distance of a place from the start. -/
def maxDistance : Int := 0x7FFFFFFF

/-- Whether a count is one of the places. -/
def Nth.includes (place : Nth) (count : Nat) : Bool :=
  let rest : Int := count - place.start
  if maxDistance < rest then false
  else if place.step = 0 then rest = 0
  else rest.tmod place.step = 0 && 0 ≤ rest.tdiv place.step

/-- Whether an element is at one of the places. -/
def Nth.passes (place : Nth) (e : Element) : Bool :=
  let others := if place.fromEnd then e.siblingsAfter else e.siblingsBefore
  let others := if place.ofType then others.filter (sameType e) else others
  place.includes (others.length + 1)

/-! ### Selectors -/

/-- Whether an element has neither elements nor texts right below it. -/
def isEmpty (e : Element) : Bool :=
  e.nodes.all fun
    | .comment _ => true
    | _          => false

/-- The elements below an element, and those beside it after it with what is below them. -/
def belowAndBeside (e : Element) : List Element :=
  e.descendants ++ e.siblingsAfter.flatMap fun s => s :: s.descendants

mutual

/-- Whether an element meets a condition. -/
def Condition.holds : Condition → Frame → Element → Bool
  | .always,         _, _ => true
  | .never,          _, _ => false
  | .type name,      _, e => e.name == nameIn e name
  | .id name,        _, e => hasId name e
  | .className name, _, e => (classes e).contains name
  | .attribute test, _, e => test.passes e
  | .nth place,      _, e => place.passes e
  | .root,           _, e => e.parent?.isNone
  | .empty,          _, e => isEmpty e
  | .scope,          f, e => f.scope.samePlace e
  | .anchor,         f, e => f.anchor?.any e.samePlace
  | .any selectors,  f, e => anyHolds selectors f e
  | .none selectors, f, e => !anyHolds selectors f e
  | .has selectors,  f, e =>
    (belowAndBeside e).any fun x => anyHolds selectors { f with anchor? := some e } x

/-- Whether an element meets all conditions. -/
def allHold : List Condition → Frame → Element → Bool
  | [],     _, _ => true
  | c :: r, f, e => c.holds f e && allHold r f e

/-- Whether an element meets a selector. -/
def Selector.holds : Selector → Frame → Element → Bool
  | .one compound,                   f, e => allHold compound f e
  | .after left combinator compound, f, e =>
    allHold compound f e && (combinator.sources e).any fun x => left.holds f x

/-- Whether an element meets one of several selectors. -/
def anyHolds : List Selector → Frame → Element → Bool
  | [],     _, _ => false
  | s :: r, f, e => s.holds f e || anyHolds r f e

end

/-- The elements below an element that meet one of several selectors, in the order of the page. -/
def select (selectors : List Selector) (start : Element) : List Element :=
  start.descendants.filter (anyHolds selectors ⟨start, none⟩)

/-- The elements below an element that meet the selector of a text; nothing if the text is none. -/
def select? (text : List Char) (start : Element) : Option (List Element) :=
  (parse? text).map fun selectors => select selectors start

end Scrape.Css
