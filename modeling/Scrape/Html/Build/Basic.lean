import Scrape.Html.Build.Forest
import Scrape.Html.Token

/-!
# Html — Build — Basic

The state in which a page is built from its tokens: the nodes so far, the elements that are open,
the elements of formatting that are to be opened again, and what the next token may be (`Mode`).
Here are the questions about open elements and the ways to insert nodes and to close elements.
-/

namespace Scrape.Html

/-- Which rules the next token follows. -/
inductive Mode where
  | initial
  | beforeHtml
  | beforeHead
  | inHead
  | afterHead
  | inBody
  | text
  | inTable
  | inTableText
  | inCaption
  | inColumnGroup
  | inTableBody
  | inRow
  | inCell
  | inSelect
  | inSelectInTable
  | inTemplate
  | afterBody
  | inFrameset
  | afterFrameset
  | afterAfterBody
  | afterAfterFrameset
  deriving DecidableEq

/-- An element of formatting that is to be opened again, or a mark that keeps those before it from
being so. -/
inductive Formatting where
  | marker
  | element (id : Nat) (tag : TagToken)

namespace Formatting

/-- Whether it is an element. -/
def isElement : Formatting → Bool
  | marker     => false
  | element .. => true

/-- Whether it is the element of a number. -/
def isAt (id : Nat) : Formatting → Bool
  | marker      => false
  | element i _ => i == id

/-- Itself with another element in the place of the element of a number. -/
def replaced (id new : Nat) : Formatting → Formatting
  | marker      => marker
  | element i t => if i == id then element new t else element i t

end Formatting

/-- The state of a page under construction.  The open elements are held with the innermost first,
the elements of formatting with the latest first. -/
structure Builder where
  forest : Forest
  mode : Mode
  /-- The mode to go back to after a text. -/
  returnMode : Mode
  /-- The modes of the templates that are open. -/
  templateModes : List Mode
  openElements : List Nat
  formatting : List Formatting
  head? : Option Nat
  form? : Option Nat
  /-- Whether the body may still turn out to be a set of frames. -/
  framesetOk : Bool
  /-- Whether the page is laid out by old rules. -/
  quirks : Bool
  /-- The characters met right in a table, with whether they are blanks. -/
  tableText : List (Bool × List Char)
  /-- Whether a line feed is left out if it comes next. -/
  skipsLineFeed : Bool
  /-- Whether what does not belong into a table is put before it. -/
  fosters : Bool
  /-- How the next token is read. -/
  content : Content

/-- A change of the page under construction. -/
abbrev Build := StateM Builder

/-- Whether a token is dealt with, or follows the rules of the mode that is set now. -/
inductive Next where
  | done
  | again (t : Token)

/-- A page of which nothing is built. -/
def Builder.initial : Builder :=
  ⟨Forest.empty, .initial, .initial, [], [], [], none, none, true, false, [], false, false, .markup⟩

namespace Build

/-- Sets the mode. -/
def setMode (m : Mode) : Build Unit := modify fun b => { b with mode := m }

/-- Lets a token follow the rules of another mode. -/
def again (m : Mode) (t : Token) : Build Next := do
  setMode m
  return .again t

/-- Settles that the page has a body. -/
def keepBody : Build Unit := modify fun b => { b with framesetOk := false }

/-- Changes the nodes. -/
def onForest (f : Forest → Forest) : Build Unit := modify fun b => { b with forest := f b.forest }

/-! ### Open elements -/

/-- The tag of an element. -/
def tagOf (id : Nat) : Build Tag := return ((← get).forest.tag? id).getD ⟨.html, "", []⟩

/-- The innermost open element. -/
def current? : Build (Option Nat) := return (← get).openElements.head?

/-- The tag of the innermost open element. -/
def currentTag : Build Tag := do
  match ← current? with
  | some id => tagOf id
  | none    => return ⟨.html, "", []⟩

/-- Whether the innermost open element has one of some names. -/
def currentIs (names : List String) : Build Bool := return (← currentTag).isOneOf names

/-- The tags of the open elements, the innermost first. -/
def openTags : Build (List Tag) := do
  let b ← get
  return b.openElements.map fun id => (b.forest.tag? id).getD ⟨.html, "", []⟩

/-- Whether an element of some kind is open inside all elements that bound a scope. -/
def inScope (bounds : Tag → Bool) (p : Tag → Bool) : Build Bool := return find (← openTags)
where
  find : List Tag → Bool
    | []     => false
    | t :: r => p t || (!bounds t && find r)

/-- Whether the element bounds the scope of most elements. -/
def boundsScope (t : Tag) : Bool :=
  match t.space with
  | .html   => ["applet", "caption", "html", "table", "td", "th", "marquee", "object",
      "template"].contains t.name
  | .mathml => ["mi", "mo", "mn", "ms", "mtext"].contains t.name
  | .svg    => ["foreignObject", "desc", "title"].contains t.name

/-- Whether the element bounds the scope of items of lists. -/
def boundsListScope (t : Tag) : Bool := boundsScope t || t.isOneOf ["ol", "ul"]

/-- Whether the element bounds the scope of paragraphs. -/
def boundsButtonScope (t : Tag) : Bool := boundsScope t || t.isNamed "button"

/-- Whether the element bounds the scope of parts of tables. -/
def boundsTableScope (t : Tag) : Bool := t.isOneOf ["html", "table", "template"]

/-- Whether the element bounds the scope of selections. -/
def boundsSelectScope (t : Tag) : Bool := !t.isOneOf ["optgroup", "option"]

/-- Whether an element of a name is open in the scope of most elements. -/
def hasOpen (name : String) : Build Bool := inScope boundsScope (·.isNamed name)

/-- Whether an element of a name is open in the scope of parts of tables. -/
def hasOpenInTable (name : String) : Build Bool := inScope boundsTableScope (·.isNamed name)

/-- Whether an element of one of some names is open in the scope of parts of tables. -/
def hasOneOpenInTable (names : List String) : Build Bool :=
  inScope boundsTableScope (·.isOneOf names)

/-- Whether a template is open. -/
def inTemplate : Build Bool := return (← openTags).any (·.isNamed "template")

/-- The body that is open. -/
def openBody? : Build (Option Nat) := do
  match (← get).openElements.reverse with
  | _ :: id :: _ => return if (← tagOf id).isNamed "body" then some id else none
  | _            => return none

/-- Closes the innermost open element. -/
def pop : Build Unit := modify fun b => { b with openElements := b.openElements.tail }

/-- Closes open elements while they are of some kind. -/
def popWhile (p : Tag → Bool) : Build Unit :=
  modify fun b =>
    { b with openElements := b.openElements.dropWhile fun id => (b.forest.tag? id).any p }

/-- Closes open elements up to one of some kind, and that one. -/
def popThrough (p : Tag → Bool) : Build Unit := do
  popWhile (!p ·)
  pop

/-- Closes open elements up to one of a name, and that one. -/
def popNamed (name : String) : Build Unit := popThrough (·.isNamed name)

/-- The elements whose end tags may be left out. -/
def impliedEnds : List String :=
  ["dd", "dt", "li", "option", "optgroup", "p", "rb", "rp", "rt", "rtc"]

/-- The elements whose end tags may be left out at the end of a template. -/
def allImpliedEnds : List String :=
  impliedEnds ++ ["caption", "colgroup", "tbody", "td", "tfoot", "th", "thead", "tr"]

/-- Closes open elements whose end tags may be left out, save those of a name. -/
def closeImplied (keep : String) : Build Unit :=
  popWhile fun t => t.isOneOf impliedEnds && t.name != keep

/-- Closes an element of a name, and before it those inside whose end tags may be left out. -/
def closeNamed (name : String) : Build Unit := do
  closeImplied name
  popNamed name

/-- Closes the paragraph that is open. -/
def closeParagraph : Build Unit := do
  if ← inScope boundsButtonScope (·.isNamed "p") then closeNamed "p"

/-- Takes an element off the open elements. -/
def removeOpen (id : Nat) : Build Unit :=
  modify fun b => { b with openElements := b.openElements.filter (· != id) }

/-! ### Insertion -/

/-- A place to insert a node at: last below a node, or before a table, or else last below a node if
the table stands nowhere. -/
inductive Spot where
  | last (parent : Nat)
  | beforeTable (table below : Nat)

/-- The elements inside which nothing but parts of tables may stand. -/
def tableNames : List String := ["table", "tbody", "tfoot", "thead", "tr"]

/-- The place for what does not belong into a table. -/
def fosterSpot : Build Spot := do return find (← get).forest (← get).openElements
where
  find (f : Forest) : List Nat → Spot
    | []      => .last 0
    | id :: r =>
      match f.tag? id, r with
      | some t, below :: _ =>
        if t.isNamed "template" then .last id
        else if t.isNamed "table" then .beforeTable id below
        else find f r
      | _,      []         => .last id
      | none,   _          => find f r

/-- The place for a node that belongs below an element. -/
def spotBelow (target : Nat) : Build Spot := do
  if (← get).fosters && (← tagOf target).isOneOf tableNames then fosterSpot
  else return .last target

/-- The place for a node that belongs below the innermost open element. -/
def spot : Build Spot := do spotBelow ((← current?).getD 0)

/-- Puts a node at a place. -/
def putNode (s : Spot) (id : Nat) : Build Unit :=
  onForest fun f =>
    match s with
    | .last parent           => f.append parent id
    | .beforeTable table below =>
      if (f.parent? table).isSome then f.insertBefore table id else f.append below id

/-- Puts characters at a place. -/
def putText (s : Spot) (text : List Char) : Build Unit :=
  onForest fun f =>
    let text := String.ofList text
    match s with
    | .last parent           => f.appendText parent text
    | .beforeTable table below =>
      if (f.parent? table).isSome then f.insertText table text else f.appendText below text

/-- Adds a node that stands alone. -/
def newNode (k : EntryKind) : Build Nat :=
  modifyGet fun b =>
    let (id, f) := b.forest.add k
    (id, { b with forest := f })

/-- Inserts characters. -/
def insertText (text : List Char) : Build Unit := do
  if !text.isEmpty then putText (← spot) text

/-- Inserts a comment. -/
def insertComment (s : String) : Build Unit := do putNode (← spot) (← newNode (.comment s))

/-- Inserts a comment last below a node. -/
def insertCommentBelow (parent : Nat) (s : String) : Build Unit := do
  putNode (.last parent) (← newNode (.comment s))

/-- Attributes with those of a tag as it is written that are not there. -/
def withAttrs (attrs : List Attribute) (more : List (String × String)) : List Attribute :=
  more.foldl (fun acc a => Attribute.insert ⟨.plain, a.1, a.2⟩ acc) attrs

/-- The attributes of a tag as it is written. -/
def plainAttrs (attrs : List (String × String)) : List Attribute := withAttrs [] attrs

/-- The tag of an element of the page's own vocabulary. -/
def tagOfToken (t : TagToken) : Tag := ⟨.html, t.name, plainAttrs t.attrs⟩

/-- Inserts an element, which stays closed. -/
def insertClosed (t : Tag) : Build Nat := do
  let s ← spot
  let id ← newNode (.element t)
  putNode s id
  return id

/-- Inserts an element and opens it. -/
def insertTag (t : Tag) : Build Nat := do
  let id ← insertClosed t
  modify fun b => { b with openElements := id :: b.openElements }
  return id

/-- Inserts the element of a token and opens it. -/
def insert (t : TagToken) : Build Unit := do let _ ← insertTag (tagOfToken t)

/-- Inserts the element of a token, which has no content. -/
def insertEmpty (t : TagToken) : Build Unit := do let _ ← insertClosed (tagOfToken t)

/-- Inserts an element that has no token, and opens it. -/
def insertNamed (name : String) : Build Unit := insert ⟨name, [], false⟩

/-- Inserts the root of the page. -/
def insertRoot (attrs : List (String × String)) : Build Unit := do
  let id ← newNode (.element ⟨.html, "html", plainAttrs attrs⟩)
  putNode (.last 0) id
  modify fun b => { b with openElements := [id] }

/-- Inserts an element the content of which is text. -/
def insertRaw (t : TagToken) (content : Content) : Build Unit := do
  insert t
  modify fun b => { b with returnMode := b.mode, mode := .text, content }

/-- Gives an element the attributes of a tag that it does not have. -/
def addAttrs (id : Nat) (attrs : List (String × String)) : Build Unit :=
  onForest fun f =>
    f.change id fun e =>
      match e.kind with
      | .element t =>
        { e with kind := .element { t with attrs := withAttrs t.attrs attrs } }
      | _ => e

/-! ### Modes -/

/-- The mode for the content of a selection inside open elements. -/
def selectMode : List Tag → Mode
  | []     => .inSelect
  | t :: r =>
    if t.isNamed "template" then .inSelect
    else if t.isNamed "table" then .inSelectInTable
    else selectMode r

/-- The mode for what comes next inside open elements. -/
def modeInside (b : Builder) : List Tag → Mode
  | []     => .inBody
  | t :: r =>
    if t.space != .html then modeInside b r
    else
      match t.name with
      | "td" | "th"                  => if r.isEmpty then .inBody else .inCell
      | "tr"                         => .inRow
      | "tbody" | "thead" | "tfoot"  => .inTableBody
      | "caption"                    => .inCaption
      | "colgroup"                   => .inColumnGroup
      | "table"                      => .inTable
      | "template"                   => b.templateModes.head?.getD .inBody
      | "head"                       => if r.isEmpty then .inBody else .inHead
      | "body"                       => .inBody
      | "frameset"                   => .inFrameset
      | "html"                       => if b.head?.isNone then .beforeHead else .afterHead
      | "select"                     => selectMode r
      | _                            => modeInside b r

/-- Sets the mode by the open elements. -/
def resetMode : Build Unit := do setMode (modeInside (← get) (← openTags))

/-! ### Elements of formatting -/

/-- Forgets the elements of formatting up to a mark, and the mark. -/
def forgetFormatting : Build Unit :=
  modify fun b => { b with formatting := (b.formatting.dropWhile Formatting.isElement).drop 1 }

/-- Marks the elements of formatting so far as not to be opened again. -/
def markFormatting : Build Unit :=
  modify fun b => { b with formatting := .marker :: b.formatting }

/-- The elements of formatting after the last mark, the latest first. -/
def activeFormatting (fs : List Formatting) : List (Nat × TagToken) :=
  match fs with
  | .element id t :: r => (id, t) :: activeFormatting r
  | _                  => []

/-- Takes an element off the elements of formatting. -/
def removeFormatting (id : Nat) : Build Unit :=
  modify fun b => { b with formatting := b.formatting.filter (!·.isAt id) }

/-- Puts another element in the place of an element of formatting. -/
def replaceFormatting (id new : Nat) : Build Unit :=
  modify fun b => { b with formatting := b.formatting.map (·.replaced id new) }

/-- Opens elements of formatting, of which the earliest comes first. -/
def reopen : List (Nat × TagToken) → Build Unit
  | []           => return ()
  | (id, t) :: r => do
    let new ← insertTag (tagOfToken t)
    replaceFormatting id new
    reopen r

/-- Opens the elements of formatting again that are not open. -/
def reopenFormatting : Build Unit := do
  let b ← get
  let closed := (activeFormatting b.formatting).takeWhile fun f => !b.openElements.contains f.1
  reopen closed.reverse

/-- Whether two tags have the same name and the same attributes in any order. -/
def sameTag (t u : TagToken) : Bool :=
  t.name == u.name && t.attrs.length == u.attrs.length && t.attrs.all u.attrs.contains

/-- Inserts an element of formatting and opens it.  Of elements that look the same, three are kept
to be opened again. -/
def insertFormatting (t : TagToken) : Build Unit := do
  let alike := (activeFormatting (← get).formatting).filter fun f => sameTag f.2 t
  match alike.drop 2 with
  | []   => pure ()
  | rest => removeFormatting ((rest.getLast?.map Prod.fst).getD 0)
  let id ← insertTag (tagOfToken t)
  modify fun b => { b with formatting := .element id t :: b.formatting }

end Build
end Scrape.Html
