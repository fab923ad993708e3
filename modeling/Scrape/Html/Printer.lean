import Scrape.Html.Node

/-!
# Html — Printer

The text of nodes.  Attributes are written in quotes and in their order; an element that cannot have
children has no end tag; texts are escaped except in elements whose content is read as it is.
-/

namespace Scrape.Html

/-- A character of a text or of an attribute's value as it is written. -/
def escapeChar (inAttr : Bool) (c : Char) : List Char :=
  if c = '&' then "&amp;".toList
  else if c.toNat = 0xA0 then "&nbsp;".toList
  else if c = '"' && inAttr then "&quot;".toList
  else if c = '<' && !inAttr then "&lt;".toList
  else if c = '>' && !inAttr then "&gt;".toList
  else [c]

/-- A text as it is written. -/
def escaped (inAttr : Bool) (s : String) : String :=
  String.ofList (s.toList.flatMap (escapeChar inAttr))

/-- The elements that have no children. -/
def voidNames : List String :=
  ["area", "base", "basefont", "bgsound", "br", "col", "embed", "frame", "hr", "img", "input",
   "keygen", "link", "meta", "param", "source", "track", "wbr"]

/-- The elements whose texts are written as they are. -/
def rawNames : List String :=
  ["style", "script", "xmp", "iframe", "noembed", "noframes", "plaintext", "noscript"]

/-- The mark before the name of an attribute. -/
def Attribute.mark (a : Attribute) : String :=
  match a.space with
  | .plain            => ""
  | .declaration      => ""
  | .xlink            => "xlink:"
  | .xml              => "xml:"
  | .namedDeclaration => "xmlns:"

/-- An attribute as it is written, after a blank. -/
def Attribute.written (a : Attribute) : String :=
  " " ++ a.mark ++ a.name ++ "=\"" ++ escaped true a.value ++ "\""

/-- The start tag of an element. -/
def Tag.start (t : Tag) : String :=
  "<" ++ t.name ++ String.join (t.attrs.map Attribute.written) ++ ">"

mutual

/-- A node as it is written in an element whose texts are written as they are, or in another. -/
def Node.written (raw : Bool) : Node → String
  | .text s      => if raw then s else escaped false s
  | .comment s   => "<!--" ++ s ++ "-->"
  | .element t c =>
    if t.isOneOf voidNames then t.start
    else t.start ++ writtenAll (t.isOneOf rawNames) c ++ "</" ++ t.name ++ ">"

/-- Nodes as they are written. -/
def writtenAll (raw : Bool) : List Node → String
  | []     => ""
  | n :: r => n.written raw ++ writtenAll raw r

end

/-- The element as it is written. -/
def Element.outerHtml (e : Element) : String := e.node.written false

/-- What is inside the element as it is written. -/
def Element.innerHtml (e : Element) : String := writtenAll false e.nodes

end Scrape.Html
