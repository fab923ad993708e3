import Scrape.Html.Build.Basic

/-!
# Html — Build — Foreign

Elements of other vocabularies inside a page.  Their names are written in small letters in a page
and get their own spelling in the tree.
-/

namespace Scrape.Html.Build

/-- The names of elements of drawings that have capital letters. -/
def svgTagNames : List String :=
  ["altGlyph", "altGlyphDef", "altGlyphItem", "animateColor", "animateMotion", "animateTransform",
   "clipPath", "feBlend", "feColorMatrix", "feComponentTransfer", "feComposite",
   "feConvolveMatrix", "feDiffuseLighting", "feDisplacementMap", "feDistantLight", "feDropShadow",
   "feFlood", "feFuncA", "feFuncB", "feFuncG", "feFuncR", "feGaussianBlur", "feImage", "feMerge",
   "feMergeNode", "feMorphology", "feOffset", "fePointLight", "feSpecularLighting", "feSpotLight",
   "feTile", "feTurbulence", "foreignObject", "glyphRef", "linearGradient", "radialGradient",
   "textPath"]

/-- The names of attributes of drawings that have capital letters. -/
def svgAttrNames : List String :=
  ["attributeName", "attributeType", "baseFrequency", "baseProfile", "calcMode", "clipPathUnits",
   "diffuseConstant", "edgeMode", "filterUnits", "glyphRef", "gradientTransform", "gradientUnits",
   "kernelMatrix", "kernelUnitLength", "keyPoints", "keySplines", "keyTimes", "lengthAdjust",
   "limitingConeAngle", "markerHeight", "markerUnits", "markerWidth", "maskContentUnits",
   "maskUnits", "numOctaves", "pathLength", "patternContentUnits", "patternTransform",
   "patternUnits", "pointsAtX", "pointsAtY", "pointsAtZ", "preserveAlpha", "preserveAspectRatio",
   "primitiveUnits", "refX", "refY", "repeatCount", "repeatDur", "requiredExtensions",
   "requiredFeatures", "specularConstant", "specularExponent", "spreadMethod", "startOffset",
   "stdDeviation", "stitchTiles", "surfaceScale", "systemLanguage", "tableValues", "targetX",
   "targetY", "textLength", "viewBox", "viewTarget", "xChannelSelector", "yChannelSelector",
   "zoomAndPan"]

/-- The spelling of a name in a list, if it has one. -/
def spelled (names : List String) (name : String) : String :=
  (names.find? fun n => n.toLower == name).getD name

/-- The attribute of an element of another vocabulary. -/
def foreignAttr (names : List String) (name value : String) : Attribute :=
  match name.toList.span (· ≠ ':') with
  | (mark, _ :: local') =>
    let rest := String.ofList local'
    let mark := String.ofList mark
    if mark = "xlink"
        && ["actuate", "arcrole", "href", "role", "show", "title", "type"].contains rest then
      ⟨.xlink, rest, value⟩
    else if mark = "xml" && ["lang", "space"].contains rest then ⟨.xml, rest, value⟩
    else if name = "xmlns:xlink" then ⟨.namedDeclaration, rest, value⟩
    else ⟨.plain, spelled names name, value⟩
  | _ =>
    if name = "xmlns" then ⟨.declaration, name, value⟩ else ⟨.plain, spelled names name, value⟩

/-- The tag of an element of another vocabulary. -/
def foreignTag (space : Space) (t : TagToken) : Tag :=
  let names := match space with
    | .svg    => svgAttrNames
    | .mathml => ["definitionURL"]
    | .html   => []
  let name := if space = .svg then spelled svgTagNames t.name else t.name
  ⟨space, name, t.attrs.foldl (fun acc a => Attribute.insert (foreignAttr names a.1 a.2) acc) []⟩

/-- Inserts the element of a token in another vocabulary; it is opened unless it ends with a slash.
-/
def insertForeign (space : Space) (t : TagToken) : Build Unit := do
  let tag := foreignTag space t
  if t.selfClosing then let _ ← insertClosed tag
  else let _ ← insertTag tag

/-- Whether texts inside the element belong to the page's own vocabulary. -/
def takesText (t : Tag) : Bool :=
  t.space == .mathml && ["mi", "mo", "mn", "ms", "mtext"].contains t.name

/-- Whether all content of the element belongs to the page's own vocabulary. -/
def takesHtml (t : Tag) : Bool :=
  match t.space with
  | .svg    => ["foreignObject", "desc", "title"].contains t.name
  | .mathml =>
    t.name == "annotation-xml" && (t.attr? "encoding").any fun e =>
      ["text/html", "application/xhtml+xml"].contains e.toLower
  | .html   => false

/-- Whether a token inside an element follows the rules of other vocabularies. -/
def isForeign (t : Tag) : Token → Bool
  | .done      => false
  | .start s   =>
    if t.space == .html || takesHtml t then false
    else if takesText t then ["mglyph", "malignmark"].contains s.name
    else !(t.space == .mathml && t.name == "annotation-xml" && s.name == "svg")
  | .text _    => t.space != .html && !takesText t && !takesHtml t
  | .blanks _  => t.space != .html && !takesText t && !takesHtml t
  | .null      => t.space != .html && !takesText t && !takesHtml t
  | _          => t.space != .html

/-- The elements that end the content of other vocabularies. -/
def htmlOnlyNames : List String :=
  ["b", "big", "blockquote", "body", "br", "center", "code", "dd", "div", "dl", "dt", "em", "embed",
   "h1", "h2", "h3", "h4", "h5", "h6", "head", "hr", "i", "img", "li", "listing", "menu", "meta",
   "nobr", "ol", "p", "pre", "ruby", "s", "small", "span", "strong", "strike", "sub", "sup",
   "table", "tt", "u", "ul", "var"]

/-- Whether a start tag ends the content of other vocabularies. -/
def endsForeign (t : TagToken) : Bool :=
  htmlOnlyNames.contains t.name
    || (t.name == "font" && t.attrs.any fun a => ["color", "face", "size"].contains a.1)

/-- Leaves the elements of other vocabularies. -/
def leaveForeign : Build Unit := do
  pop
  popWhile fun t => !(t.space == .html || takesText t || takesHtml t)

/-- What the end tag of a name does in elements of other vocabularies: it closes one of them, it
follows the rules of the page's own vocabulary, or it does nothing. -/
inductive ForeignEnd where
  | closes (count : Nat)
  | html
  | nothing

/-- What the end tag of a name does, by the open elements from the `i`-th on, the innermost first.
-/
def foreignEnd (name : String) : Nat → List Tag → ForeignEnd
  | _, []     => .nothing
  | _, [_]    => .nothing
  | i, t :: r =>
    if i ≠ 0 && t.space == .html then .html
    else if t.name.toLower == name then .closes (i + 1)
    else foreignEnd name (i + 1) r

end Scrape.Html.Build
