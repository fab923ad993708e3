import Scrape.Html.Node

/-!
# XPath — Basic

Location paths.  A path leads from nodes to nodes by steps; a step goes to the children or to all
that is below, takes what passes its test, and keeps of that what its predicates accept.  A query is
a union of paths.
-/

namespace Scrape.XPath

/-- Where a step leads. -/
inductive Axis where
  | child
  | descendant
  deriving DecidableEq

/-- What a step takes. -/
inductive Test where
  /-- Elements with a name. -/
  | name (n : String)
  /-- All elements. -/
  | any
  /-- The node itself. -/
  | self
  /-- The element above. -/
  | parent
  /-- Texts. -/
  | text
  /-- The values of an attribute. -/
  | attr (n : String)
  deriving DecidableEq

/-- What a predicate looks at. -/
inductive Operand where
  | attr (n : String)
  /-- The texts right below the element. -/
  | ownText
  /-- All text of the element in single spaces. -/
  | value
  deriving DecidableEq

/-- A condition on an element, or on its place among the elements of one parent. -/
inductive Predicate where
  /-- The place, counted from one. -/
  | position (n : Nat)
  | last
  | hasAttr (n : String)
  | equals (op : Operand) (s : String)
  | contains (op : Operand) (s : String)
  | startsWith (op : Operand) (s : String)
  deriving DecidableEq

/-- A step of a path. -/
structure Step where
  axis : Axis
  test : Test
  predicates : List Predicate
  deriving DecidableEq

/-- A path, from the context element or from above it. -/
structure Path where
  absolute : Bool
  steps : List Step
  deriving DecidableEq

/-- A union of paths. -/
structure Query where
  paths : List Path
  deriving DecidableEq

/-- A result of a path. -/
inductive Item where
  /-- What is above the context element, whose one child it is. -/
  | root (context : Html.Element)
  | element (e : Html.Element)
  | text (s : String)

end Scrape.XPath
