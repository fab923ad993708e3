import Scrape.Html.Parse
import Scrape.Html.Printer
import Scrape.Json.Parser
import Scrape.Json.Printer
import Scrape.Text.Blank
import Scrape.Css.Match

/-!
# Document

Documents and the nodes that rules are evaluated on.  A document is a page or a value of JSON; a
node is an element of a page, or a value of JSON with its index in the list it was taken from.
Both answer the same questions: what is below, what is under a name, which text it has.
-/

namespace Scrape

/-- A document. -/
inductive Document where
  | page (root : Html.Element)
  | json (value : Json)

/-- A node of a document. -/
inductive Node where
  | element (e : Html.Element)
  | json (value : Json) (index : Nat)

namespace Document

/-- The page of a text. -/
def ofHtml (text : String) : Document := .page (Html.parse text.toList)

/-- The document of a text: the value of JSON that it is, if it begins like an array or an object,
else a page. -/
def ofText (text : String) : Document :=
  let json? : Option Json :=
    match Text.trimStart text.toList with
    | '\x7b' :: _ => Json.parse? text.toList
    | '[' :: _    => Json.parse? text.toList
    | _           => none
  match json? with
  | some v => .json v
  | none   => ofHtml text

/-- Whether the document is a value of JSON. -/
def isJson : Document → Bool
  | json _ => true
  | page _ => false

/-- The node that rules start from. -/
def root : Document → Node
  | page e => .element e
  | json v => .json v 0

end Document

namespace Node

/-- Values as nodes, each with its index. -/
def ofValues (values : List Json) : List Node := values.zipIdx.map fun (v, i) => .json v i

/-- Whether the node is a value of JSON. -/
def isJson : Node → Bool
  | json ..   => true
  | element _ => false

/-- The element that the node is. -/
def element? : Node → Option Html.Element
  | element e => some e
  | json ..   => none

/-- The name of an element; a value of JSON has none. -/
def tagName? (n : Node) : Option String := n.element?.map (·.name)

/-- The elements below that meet one of the selectors; below a value of JSON there are none. -/
def select (selectors : List Css.Selector) : Node → List Node
  | element e => (Css.select selectors e).map .element
  | json ..   => []

/-- The elements right below, or the items or fields of a value. -/
def children : Node → List Node
  | element e            => e.children.map .element
  | json (.array vs) _   => ofValues vs
  | json (.object fs) _  => ofValues (fs.map Prod.snd)
  | json _ _             => []

/-- The elements below with a name.  In a value of JSON the name is a key, and an array under it
stands for its items. -/
def named (name : List Char) : Node → List Node
  | element e => ((Css.select? name e).getD []).map .element
  | json v _  =>
    match v.field? (String.ofList name) with
    | some (.array vs) => ofValues vs
    | some .null       => []
    | none             => []
    | some other       => [.json other 0]

/-- The value of an attribute, or the text of a field. -/
def attr? (name : String) : Node → Option String
  | element e => e.attr? name
  | json v _  => (v.field? name).map Json.output

/-- The text of an element and all below it in single spaces, or the text of a value. -/
def text : Node → String
  | element e => Text.singleSpaced e.text
  | json v _  => v.output

/-- The texts right below an element that are not blank, trimmed, or the text of a value. -/
def textNodes : Node → List String
  | element e => (e.ownTexts.map Text.trimmed).filter fun t => !t.isEmpty
  | json v _  => [v.output]

/-- The texts right below an element in single spaces, or the text of a value. -/
def ownText (n : Node) : String :=
  match n with
  | element _ => Text.singleSpaced (" ".intercalate n.textNodes)
  | json v _  => v.output

/-- The element, or the value, as it is written. -/
def outer : Node → String
  | element e => e.outerHtml
  | json v _  => v.text

/-- What is inside the element, or the value, as it is written. -/
def inner : Node → String
  | element e => e.innerHtml
  | json v _  => v.text

/-- The value of JSON that the node is, or that the text of an element is. -/
def json? : Node → Option Json
  | element e => Json.parse? (Text.trim e.text.toList)
  | json v _  => some v

end Node
end Scrape
