import Scrape.Html.Build.Foreign
import Scrape.Html.Build.Misnested

/-!
# Html — Build — Body

The rules for tokens in the head and in the body of a page.
-/

namespace Scrape.Html.Build

/-- Deals with the start of the page where it has begun: its attributes are added. -/
def htmlStart (t : TagToken) : Build Next := do
  if !(← inTemplate) then
    match (← get).openElements.getLast? with
    | some id => addAttrs id t.attrs
    | none    => pure ()
  return .done

/-- Closes templates up to the innermost, and it. -/
def closeTemplate : Build Unit := do
  popNamed "template"
  forgetFormatting
  modify fun b => { b with templateModes := b.templateModes.tail }
  resetMode

/-- The rules of the head, for tokens that have some; `none` for those that end the head. -/
def headRules? (token : Token) : Build (Option Next) := do
  match token with
  | .blanks s  => insertText s; return some .done
  | .comment s => insertComment s; return some .done
  | .start t =>
    match t.name with
    | "html" => return some (← htmlStart t)
    | "base" | "basefont" | "bgsound" | "link" | "meta" => insertEmpty t; return some .done
    | "title" => insertRaw t (.raw "title".toList true); return some .done
    | "noframes" | "style" | "noscript" =>
      insertRaw t (.raw t.name.toList false)
      return some .done
    | "script" => insertRaw t .script; return some .done
    | "template" =>
      insert t
      markFormatting
      keepBody
      modify fun b =>
        { b with mode := .inTemplate, templateModes := .inTemplate :: b.templateModes }
      return some .done
    | "head" => return some .done
    | _      => return none
  | .close t =>
    match t.name with
    | "head" => pop; setMode .afterHead; return some .done
    | "body" | "html" | "br" => return none
    | "template" =>
      if ← inTemplate then
        popWhile (·.isOneOf allImpliedEnds)
        closeTemplate
      return some .done
    | _ => return some .done
  | .doctype _ => return some .done
  | _          => return none

/-- The rules of the head inside another part of the page, where nothing ends the head. -/
def headRules (token : Token) : Build Next := return (← headRules? token).getD .done

/-- The names of headings. -/
def headingNames : List String := ["h1", "h2", "h3", "h4", "h5", "h6"]

/-- The names of blocks that end a paragraph. -/
def blockNames : List String :=
  ["address", "article", "aside", "blockquote", "center", "details", "dialog", "dir", "div", "dl",
   "fieldset", "figcaption", "figure", "footer", "header", "hgroup", "main", "menu", "nav", "ol",
   "p", "search", "section", "summary", "ul"]

/-- The names of elements of formatting, save links and `nobr`. -/
def formattingNames : List String :=
  ["b", "big", "code", "em", "font", "i", "s", "small", "strike", "strong", "tt", "u"]

/-- Closes the item of a list before another one. -/
def closeItem (names : List String) : Build Unit := do
  match found? (← openTags) with
  | some name => closeNamed name
  | none      => return ()
where
  found? : List Tag → Option String
    | []     => none
    | t :: r =>
      if t.isOneOf names then some t.name
      else if isSpecial t && !t.isOneOf ["address", "div", "p"] then none
      else found? r

/-- Opens a form. -/
def openForm (t : TagToken) : Build Unit := do
  insert t
  let id ← current?
  modify fun b => { b with form? := id }

/-- Closes a form. -/
def closeForm : Build Unit := do
  if ← inTemplate then
    if ← hasOpen "form" then
      closeImplied ""
      popNamed "form"
  else
    match (← get).form? with
    | none    => return ()
    | some id =>
      modify fun b => { b with form? := none }
      let b ← get
      let inside := b.openElements.takeWhile (· != id)
      if b.openElements.contains id
          && !(inside.any fun i => (b.forest.tag? i).any boundsScope) then
        closeImplied ""
        removeOpen id

/-- Starts a set of frames in the place of the body. -/
def framesetInBody (t : TagToken) : Build Unit := do
  if !(← get).framesetOk then return
  match ← openBody? with
  | none      => return ()
  | some body =>
    onForest (·.detach body)
    modify fun b =>
      { b with openElements := b.openElements.drop (b.openElements.length - 1) }
    insert t
    setMode .inFrameset

/-- The rules of the body for a start tag. -/
def bodyStart (t : TagToken) : Build Next := do
  let n := t.name
  if blockNames.contains n then
    closeParagraph
    insert t
  else if headingNames.contains n then
    closeParagraph
    if ← currentIs headingNames then pop
    insert t
  else if formattingNames.contains n then
    reopenFormatting
    insertFormatting t
  else
    match n with
    | "html" => return ← htmlStart t
    | "base" | "basefont" | "bgsound" | "link" | "meta" | "noframes" | "script" | "style"
    | "template" | "title" => return ← headRules (.start t)
    | "body" =>
      match ← openBody? with
      | some id =>
        if !(← inTemplate) then
          keepBody
          addAttrs id t.attrs
      | none => return .done
    | "frameset" => framesetInBody t
    | "pre" | "listing" =>
      closeParagraph
      insert t
      keepBody
      modify fun b => { b with skipsLineFeed := true }
    | "form" =>
      if (← get).form?.isNone || (← inTemplate) then
        closeParagraph
        if ← inTemplate then insert t else openForm t
    | "li" =>
      keepBody
      closeItem ["li"]
      closeParagraph
      insert t
    | "dd" | "dt" =>
      keepBody
      closeItem ["dd", "dt"]
      closeParagraph
      insert t
    | "plaintext" =>
      closeParagraph
      insert t
      modify fun b => { b with content := .plain }
    | "button" =>
      if ← hasOpen "button" then
        closeImplied ""
        popNamed "button"
      reopenFormatting
      insert t
      keepBody
    | "a" =>
      closeLink
      reopenFormatting
      insertFormatting t
    | "nobr" =>
      reopenFormatting
      if ← hasOpen "nobr" then
        closeFormatting "nobr"
        reopenFormatting
      insertFormatting t
    | "applet" | "marquee" | "object" =>
      reopenFormatting
      insert t
      markFormatting
      keepBody
    | "table" =>
      if !(← get).quirks then closeParagraph
      insert t
      keepBody
      setMode .inTable
    | "area" | "br" | "embed" | "img" | "keygen" | "wbr" =>
      reopenFormatting
      insertEmpty t
      keepBody
    | "image" =>
      reopenFormatting
      insertEmpty { t with name := "img" }
      keepBody
    | "input" =>
      reopenFormatting
      insertEmpty t
      if !(t.attrs.any fun a => a.1 == "type" && a.2.toLower == "hidden") then keepBody
    | "param" | "source" | "track" => insertEmpty t
    | "hr" =>
      closeParagraph
      insertEmpty t
      keepBody
    | "textarea" =>
      keepBody
      insertRaw t (.raw "textarea".toList true)
      modify fun b => { b with skipsLineFeed := true }
    | "xmp" =>
      closeParagraph
      reopenFormatting
      keepBody
      insertRaw t (.raw "xmp".toList false)
    | "iframe" =>
      keepBody
      insertRaw t (.raw "iframe".toList false)
    | "noembed" => insertRaw t (.raw "noembed".toList false)
    | "noscript" => insertRaw t (.raw "noscript".toList false)
    | "select" =>
      reopenFormatting
      insert t
      keepBody
      let inTablePart := [Mode.inTable, .inCaption, .inTableBody, .inRow, .inCell].contains
        (← get).mode
      setMode (if inTablePart then .inSelectInTable else .inSelect)
    | "optgroup" | "option" =>
      if ← currentIs ["option"] then pop
      reopenFormatting
      insert t
    | "rb" | "rtc" =>
      if ← hasOpen "ruby" then closeImplied ""
      insert t
    | "rp" | "rt" =>
      if ← hasOpen "ruby" then closeImplied "rtc"
      insert t
    | "math" =>
      reopenFormatting
      insertForeign .mathml t
    | "svg" =>
      reopenFormatting
      insertForeign .svg t
    | "caption" | "col" | "colgroup" | "frame" | "head" | "tbody" | "td" | "tfoot" | "th"
    | "thead" | "tr" => return .done
    | _ =>
      reopenFormatting
      insert t
  return .done

/-- The rules of the body for an end tag. -/
def bodyClose (t : TagToken) : Build Next := do
  let n := t.name
  if (blockNames ++ ["button", "listing", "pre"]).contains n && n != "p" then
    if ← hasOpen n then
      closeImplied ""
      popNamed n
  else if headingNames.contains n then
    if ← inScope boundsScope (·.isOneOf headingNames) then
      closeImplied ""
      popThrough (·.isOneOf headingNames)
  else if (formattingNames ++ ["a", "nobr"]).contains n then closeFormatting n
  else
    match n with
    | "template" => return ← headRules (.close t)
    | "body" => if ← hasOpen "body" then setMode .afterBody
    | "html" => if ← hasOpen "body" then return ← again .afterBody (.close t)
    | "form" => closeForm
    | "p" =>
      if !(← inScope boundsButtonScope (·.isNamed "p")) then insertNamed "p"
      closeNamed "p"
    | "li" => if ← inScope boundsListScope (·.isNamed "li") then closeNamed "li"
    | "dd" | "dt" => if ← hasOpen n then closeNamed n
    | "applet" | "marquee" | "object" =>
      if ← hasOpen n then
        closeImplied ""
        popNamed n
        forgetFormatting
    | "br" =>
      reopenFormatting
      insertEmpty ⟨"br", [], false⟩
      keepBody
    | _ => closeAny n
  return .done

/-- What the end of the page does in a template. -/
def endInTemplate : Build Next := do
  if ← inTemplate then
    closeTemplate
    return .again .done
  return .done

/-- The rules of the body. -/
def bodyRules (token : Token) : Build Next := do
  match token with
  | .blanks s =>
    reopenFormatting
    insertText s
    return .done
  | .text s =>
    reopenFormatting
    insertText s
    keepBody
    return .done
  | .comment s => insertComment s; return .done
  | .start t   => bodyStart t
  | .close t   => bodyClose t
  | .done      => if (← get).templateModes.isEmpty then return .done else endInTemplate
  | _          => return .done

end Scrape.Html.Build
