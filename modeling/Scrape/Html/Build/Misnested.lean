import Scrape.Html.Build.Basic

/-!
# Html — Build — Misnested

End tags in the body, and what is done where elements of formatting are closed in another order than
they were opened: the element is split, so that each part stays inside one of the blocks.
-/

namespace Scrape.Html.Build

/-- The elements that are blocks or otherwise more than formatting. -/
def specialNames : List String :=
  ["address", "applet", "area", "article", "aside", "base", "basefont", "bgsound", "blockquote",
   "body", "br", "button", "caption", "center", "col", "colgroup", "dd", "details", "dir", "div",
   "dl", "dt", "embed", "fieldset", "figcaption", "figure", "footer", "form", "frame", "frameset",
   "h1", "h2", "h3", "h4", "h5", "h6", "head", "header", "hgroup", "hr", "html", "iframe", "img",
   "input", "isindex", "li", "link", "listing", "main", "marquee", "menu", "meta", "nav", "noembed",
   "noframes", "noscript", "object", "ol", "p", "param", "plaintext", "pre", "script", "section",
   "select", "source", "style", "summary", "table", "tbody", "td", "template", "textarea", "tfoot",
   "th", "thead", "title", "tr", "track", "ul", "wbr", "xmp"]

/-- Whether the element is more than formatting. -/
def isSpecial (t : Tag) : Bool := t.isOneOf specialNames

/-- Closes the innermost open element of a name, unless one that is special stands inside it. -/
def closeAny (name : String) : Build Unit := do
  if closes (← openTags) then closeNamed name
where
  closes : List Tag → Bool
    | []     => false
    | t :: r => t.isNamed name || (!isSpecial t && closes r)

/-- Where the copy of a split element comes among the elements of formatting: in its place, or right
after another. -/
inductive Bookmark where
  | inPlace
  | after (id : Nat)

/-- What is known while an element is split: the element that was moved last, and the bookmark. -/
structure Splitting where
  last : Nat
  bookmark : Bookmark

/-- Copies the elements between a block and the element that is split, the nearest to the block
first, each around the one before.  Elements that are not to be opened again are closed instead, and
so are all from the fourth on. -/
def copyBetween (block : Nat) : Nat → Splitting → List Nat → Build Splitting
  | _,     s, []      => return s
  | count, s, id :: r => do
    if 3 < count then removeFormatting id
    match (activeFormatting' (← get).formatting).find? (·.1 == id) with
    | none =>
      removeOpen id
      copyBetween block (count + 1) s r
    | some (_, t) =>
      let new ← newNode (.element (tagOfToken t))
      replaceFormatting id new
      modify fun b =>
        { b with openElements := b.openElements.map fun i => if i == id then new else i }
      let bookmark := if s.last == block then .after new else s.bookmark
      onForest (·.append new s.last)
      copyBetween block (count + 1) ⟨new, bookmark⟩ r
where
  /-- All elements of formatting. -/
  activeFormatting' : List Formatting → List (Nat × TagToken)
    | []                 => []
    | .marker :: r       => activeFormatting' r
    | .element id t :: r => (id, t) :: activeFormatting' r

/-- Puts an element among the elements of formatting in the place of another. -/
def placeFormatting (mark : Bookmark) (old new : Nat) (t : TagToken) (fs : List Formatting) :
    List Formatting :=
  match mark with
  | .inPlace  => fs.map (·.replaced old new)
  | .after id =>
    (fs.flatMap fun f => if f.isAt id then [.element new t, f] else [f]).filter (!·.isAt old)

/-- Splits an element of formatting around the outermost block inside it. -/
def split (id : Nat) (t : TagToken) (block : Nat) : Build Unit := do
  let b ← get
  let outside := (b.openElements.dropWhile (· != id)).drop 1
  let between := ((b.openElements.takeWhile (· != id)).dropWhile (· != block)).drop 1
  let s ← copyBetween block 1 ⟨block, .inPlace⟩ between
  onForest (·.detach s.last)
  putNode (← spotBelow (outside.head?.getD 0)) s.last
  let new ← newNode (.element (tagOfToken t))
  onForest (·.moveChildren block new)
  onForest (·.append block new)
  modify fun b =>
    { b with
      formatting := placeFormatting s.bookmark id new t b.formatting
      openElements := (b.openElements.filter (· != id)).flatMap fun i =>
        if i == block then [new, i] else [i] }

/-- Closes an element of formatting again and again until it is not open any more; `rounds` bounds
how often. -/
def closeFormattingFrom (name : String) : Nat → Build Unit
  | 0          => return ()
  | rounds + 1 => do
    let b ← get
    match (activeFormatting b.formatting).find? (·.2.name == name) with
    | none         => closeAny name
    | some (id, t) =>
      if !b.openElements.contains id then removeFormatting id
      else if !(← idInScope id) then return ()
      else
        let inside := b.openElements.takeWhile (· != id)
        let blocks := inside.filter fun i => (b.forest.tag? i).any isSpecial
        match blocks.getLast? with
        | none =>
          modify fun b => { b with openElements := (b.openElements.dropWhile (· != id)).drop 1 }
          removeFormatting id
        | some block =>
          split id t block
          closeFormattingFrom name rounds
where
  /-- Whether an open element is in the scope of most elements. -/
  idInScope (id : Nat) : Build Bool := do
    let b ← get
    let inside := b.openElements.takeWhile (· != id)
    return !(inside.any fun i => (b.forest.tag? i).any boundsScope)

/-- Closes an element of formatting. -/
def closeFormatting (name : String) : Build Unit := do
  let b ← get
  let isCurrent := (← currentTag).isNamed name
  let active := (b.formatting.any fun f => (b.openElements.head?).any f.isAt)
  if isCurrent && !active then pop else closeFormattingFrom name 8

/-- Closes a link that is still to be opened again, before another one. -/
def closeLink : Build Unit := do
  match (activeFormatting (← get).formatting).find? (·.2.name == "a") with
  | none         => return ()
  | some (id, _) =>
    closeFormatting "a"
    removeFormatting id
    removeOpen id

end Scrape.Html.Build
