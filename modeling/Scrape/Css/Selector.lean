import Scrape.Text.Find

/-!
# Css — Selector

Selectors of elements.  A compound is a list of conditions on one element; a selector is a compound,
with combinators and further compounds before it that say where in the tree the element stands.
-/

namespace Scrape.Css

/-- How the compound before a combinator is found from the element after it. -/
inductive Combinator where
  /-- Somewhere above. -/
  | descendant
  /-- Right above. -/
  | child
  /-- Right before. -/
  | next
  /-- Somewhere before. -/
  | later
  deriving DecidableEq

/-- How the value of an attribute is compared. -/
inductive Comparison where
  | equals
  /-- One of the words is equal. -/
  | includes
  /-- Equal, or it begins with the value and a hyphen. -/
  | dash
  | begins
  | ends
  | contains
  deriving DecidableEq

/-- Whether the case of letters counts in a comparison. -/
inductive CaseRule where
  | exact
  | ignored
  /-- Ignored in elements of the page's own vocabulary. -/
  | byVocabulary
  deriving DecidableEq

/-- A condition on the value of an attribute. -/
structure ValueTest where
  comparison : Comparison
  value : String
  caseRule : CaseRule
  deriving DecidableEq

/-- A condition on an attribute: its name, of any vocabulary or of none, and perhaps its value. -/
structure AttributeTest where
  anySpace : Bool
  name : String
  value? : Option ValueTest
  deriving DecidableEq

/-- A condition on the place among the elements right below the same one, or those of the same type:
for some `n` of at least zero it is `step * n + start`, counted from one. -/
structure Nth where
  step : Int
  start : Int
  ofType : Bool
  fromEnd : Bool
  deriving DecidableEq

mutual

/-- A condition on an element. -/
inductive Condition where
  /-- Met by every element. -/
  | always
  /-- Met by no element. -/
  | never
  | type (name : String)
  | id (name : String)
  | className (name : String)
  | attribute (test : AttributeTest)
  | nth (place : Nth)
  | root
  | empty
  /-- The element the search starts from. -/
  | scope
  /-- The element of which something below or beside it is required. -/
  | anchor
  | any (selectors : List Selector)
  | none (selectors : List Selector)
  /-- An element below or beside meets one of the selectors, which start from the anchor. -/
  | has (selectors : List Selector)

/-- A selector. -/
inductive Selector where
  /-- One element. -/
  | one (compound : List Condition)
  /-- An element that stands to another one as the combinator says. -/
  | after (left : Selector) (combinator : Combinator) (compound : List Condition)

end

/-- The attributes whose values are compared without regard to case unless the selector says
otherwise. -/
def caselessAttributes : List String :=
  ["accept", "accept-charset", "align", "alink", "axis", "bgcolor", "charset", "checked", "clear",
   "codetype", "color", "compact", "declare", "defer", "dir", "direction", "disabled", "enctype",
   "face", "frame", "hreflang", "http-equiv", "lang", "language", "link", "media", "method",
   "multiple", "nohref", "noresize", "noshade", "nowrap", "readonly", "rel", "rev", "rules",
   "scope", "scrolling", "selected", "shape", "target", "text", "type", "valign", "valuetype",
   "vlink"]

/-- A name with the letters of ASCII made small. -/
def lowerName (s : String) : String := String.ofList (Text.asciiLower s.toList)

end Scrape.Css
