/-!
# Html — Node

The tree of a page: elements with their attributes and children, texts and comments.  An element
is looked at from its place in the tree (`Element`), which knows the elements above it; so two
equal elements at different places are different.
-/

namespace Scrape.Html

/-- The vocabulary an element belongs to. -/
inductive Space where
  | html
  | svg
  | mathml
  deriving DecidableEq

/-- The vocabulary an attribute belongs to: none of its own, or one of those that elements of other
vocabularies use. -/
inductive AttrSpace where
  | plain
  /-- The declaration of a vocabulary. -/
  | declaration
  | xlink
  | xml
  /-- The declaration of a named vocabulary. -/
  | namedDeclaration
  deriving DecidableEq

/-- An attribute. -/
structure Attribute where
  space : AttrSpace
  name : String
  value : String
  deriving DecidableEq

/-- What an element is, without its children; the attributes are in order. -/
structure Tag where
  space : Space
  name : String
  attrs : List Attribute
  deriving DecidableEq

/-- A node of a page. -/
inductive Node where
  | element (tag : Tag) (children : List Node)
  | text (s : String)
  | comment (s : String)

namespace Attribute

/-- The rank of an attribute's vocabulary in the order of attributes. -/
def rank (a : Attribute) : Nat :=
  match a.space with
  | .plain            => 0
  | .declaration      => 1
  | .xlink            => 2
  | .xml              => 3
  | .namedDeclaration => 4

/-- Whether an attribute comes before another. -/
def before (a b : Attribute) : Bool := a.rank < b.rank || (a.rank == b.rank && a.name < b.name)

/-- The attributes with one put at its place, unless one of its name is there. -/
def insert (a : Attribute) : List Attribute → List Attribute
  | []     => [a]
  | b :: r =>
    if a.before b then a :: b :: r
    else if b.before a then b :: insert a r
    else b :: r

end Attribute

namespace Tag

/-- Whether the tag is that of an element of the page's own vocabulary with some name. -/
def isNamed (name : String) (t : Tag) : Bool := t.space == .html && t.name == name

/-- Whether the tag is that of an element of the page's own vocabulary with one of some names. -/
def isOneOf (names : List String) (t : Tag) : Bool := t.space == .html && names.contains t.name

/-- The value of an attribute. -/
def attr? (name : String) (t : Tag) : Option String :=
  (t.attrs.find? fun a => a.space == .plain && a.name == name).map (·.value)

end Tag

/-! ### Places -/

/-- An element at its place: at the top of the page, or the child of an element, counted among all
children. -/
inductive Element where
  | top (tag : Tag) (children : List Node)
  | child (parent : Element) (index : Nat) (tag : Tag) (children : List Node)

namespace Element

/-- The tag of the element. -/
def tag : Element → Tag
  | top t _       => t
  | child _ _ t _ => t

/-- The children of the element. -/
def nodes : Element → List Node
  | top _ c       => c
  | child _ _ _ c => c

/-- The element above. -/
def parent? : Element → Option Element
  | top ..         => none
  | child p _ _ _  => some p

/-- The element as a node. -/
def node (e : Element) : Node := .element e.tag e.nodes

/-- The name of the element. -/
def name (e : Element) : String := e.tag.name

/-- The value of an attribute. -/
def attr? (name : String) (e : Element) : Option String := e.tag.attr? name

/-- The place of the element: the indices of the elements above it and its own, the innermost
first. -/
def place : Element → List Nat
  | top ..        => []
  | child p i _ _ => i :: p.place

/-- Whether two elements of a page are at the same place. -/
def samePlace (a b : Element) : Bool := a.place == b.place

/-- The elements above, the nearest first. -/
def ancestors : Element → List Element
  | top ..        => []
  | child p _ _ _ => p :: p.ancestors

/-- The elements among nodes, which are children of `parent` from an index on. -/
def childrenFrom (parent : Element) : Nat → List Node → List Element
  | _, []                 => []
  | i, .element t c :: r  => .child parent i t c :: childrenFrom parent (i + 1) r
  | i, _ :: r             => childrenFrom parent (i + 1) r

/-- The elements right below the element. -/
def children (e : Element) : List Element := childrenFrom e 0 e.nodes

mutual

/-- The element at an index below `parent` and all elements below it, in the order of the page. -/
def withDescendants (parent : Element) (i : Nat) : Node → List Element
  | .element t c =>
    let e := .child parent i t c
    e :: descendantsFrom e 0 c
  | .text _    => []
  | .comment _ => []

/-- The elements among nodes, which are children of `parent` from an index on, and all elements
below them, in the order of the page. -/
def descendantsFrom (parent : Element) (i : Nat) : List Node → List Element
  | []     => []
  | n :: r => withDescendants parent i n ++ descendantsFrom parent (i + 1) r

end

/-- The elements below the element at any depth, in the order of the page. -/
def descendants (e : Element) : List Element := descendantsFrom e 0 e.nodes

/-- The other elements right below the element above. -/
def siblings (e : Element) : List Element := (e.parent?.map children).getD [e]

/-- The elements before the element right below the same element, the nearest first. -/
def siblingsBefore (e : Element) : List Element :=
  (e.siblings.takeWhile fun s => !s.samePlace e).reverse

/-- The elements after the element right below the same element, the nearest first. -/
def siblingsAfter (e : Element) : List Element :=
  (e.siblings.dropWhile fun s => !s.samePlace e).tail

end Element

/-! ### Texts -/

mutual

/-- The texts of a node and all nodes below it, in the order of the page. -/
def Node.texts : Node → List String
  | .text s      => [s]
  | .comment _   => []
  | .element _ c => textsOf c

/-- The texts of nodes and all nodes below them. -/
def textsOf : List Node → List String
  | []     => []
  | n :: r => n.texts ++ textsOf r

end

/-- The text of an element: all texts below it joined. -/
def Element.text (e : Element) : String := String.join (textsOf e.nodes)

/-- The texts right below an element. -/
def Element.ownTexts (e : Element) : List String :=
  e.nodes.filterMap fun
    | .text s => some s
    | _       => none

end Scrape.Html
