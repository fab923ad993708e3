import Scrape.Html.Build.Table

/-!
# Html — Build — Page

The rules for tokens outside the body, and the choice of the rules by the mode.
-/

namespace Scrape.Html.Build

/-- The beginnings of public identifiers of document types that ask for old rules of layout. -/
def quirkyPublicIds : List String :=
  ["-//advasoft ltd//dtd html 3.0 aswedit + extensions//",
   "-//as//dtd html 3.0 aswedit + extensions//",
   "-//ietf//dtd html 2.0 level 1//", "-//ietf//dtd html 2.0 level 2//",
   "-//ietf//dtd html 2.0 strict level 1//", "-//ietf//dtd html 2.0 strict level 2//",
   "-//ietf//dtd html 2.0 strict//", "-//ietf//dtd html 2.0//", "-//ietf//dtd html 2.1e//",
   "-//ietf//dtd html 3.0//", "-//ietf//dtd html 3.2 final//", "-//ietf//dtd html 3.2//",
   "-//ietf//dtd html 3//", "-//ietf//dtd html level 0//", "-//ietf//dtd html level 1//",
   "-//ietf//dtd html level 2//", "-//ietf//dtd html level 3//",
   "-//ietf//dtd html strict level 0//", "-//ietf//dtd html strict level 1//",
   "-//ietf//dtd html strict level 2//", "-//ietf//dtd html strict level 3//",
   "-//ietf//dtd html strict//", "-//ietf//dtd html//",
   "-//metrius//dtd metrius presentational//",
   "-//microsoft//dtd internet explorer 2.0 html strict//",
   "-//microsoft//dtd internet explorer 2.0 html//",
   "-//microsoft//dtd internet explorer 2.0 tables//",
   "-//microsoft//dtd internet explorer 3.0 html strict//",
   "-//microsoft//dtd internet explorer 3.0 html//",
   "-//microsoft//dtd internet explorer 3.0 tables//",
   "-//netscape comm. corp.//dtd html//", "-//netscape comm. corp.//dtd strict html//",
   "-//o'reilly and associates//dtd html 2.0//",
   "-//o'reilly and associates//dtd html extended 1.0//",
   "-//o'reilly and associates//dtd html extended relaxed 1.0//",
   "-//softquad software//dtd hotmetal pro 6.0::19990601::extensions to html 4.0//",
   "-//softquad//dtd hotmetal pro 4.0::19971010::extensions to html 4.0//",
   "-//spyglass//dtd html 2.0 extended//", "-//sq//dtd html 2.0 hotmetal + extensions//",
   "-//sun microsystems corp.//dtd hotjava html//",
   "-//sun microsystems corp.//dtd hotjava strict html//", "-//w3c//dtd html 3 1995-03-24//",
   "-//w3c//dtd html 3.2 draft//", "-//w3c//dtd html 3.2 final//", "-//w3c//dtd html 3.2//",
   "-//w3c//dtd html 3.2s draft//", "-//w3c//dtd html 4.0 frameset//",
   "-//w3c//dtd html 4.0 transitional//", "-//w3c//dtd html experimental 19960712//",
   "-//w3c//dtd html experimental 970421//", "-//w3c//dtd w3 html//", "-//w3o//dtd w3 html 3.0//",
   "-//webtechs//dtd mozilla html 2.0//", "-//webtechs//dtd mozilla html//"]

/-- Whether a document type asks for old rules of layout. -/
def asksForQuirks (d : Doctype) : Bool :=
  let id := (d.publicId?.getD "").toLower
  let starts (p : String) : Bool := Text.startsWith p.toList id.toList
  d.broken || d.name != "html"
    || ["-//w3o//dtd w3 html strict 3.0//en//", "-/w3c/dtd html 4.0 transitional/en",
        "html"].contains id
    || (d.systemId?.getD "").toLower == "http://www.ibm.com/data/dtd/v11/ibmxhtml1-transitional.dtd"
    || quirkyPublicIds.any starts
    || (d.systemId?.isNone && (starts "-//w3c//dtd html 4.01 frameset//"
      || starts "-//w3c//dtd html 4.01 transitional//"))

/-- The rules before a document type. -/
def initialRules (token : Token) : Build Next := do
  match token with
  | .blanks _  => return .done
  | .comment s => insertCommentBelow 0 s; return .done
  | .doctype d =>
    modify fun b => { b with mode := .beforeHtml, quirks := asksForQuirks d }
    return .done
  | token      =>
    modify fun b => { b with quirks := true }
    again .beforeHtml token

/-- Whether an end tag is dealt with where no element is open that it could close. -/
def endsAnything (t : TagToken) : Bool := ["head", "body", "html", "br"].contains t.name

/-- The rules before the root. -/
def beforeHtmlRules (token : Token) : Build Next := do
  let otherwise : Build Next := do
    insertRoot []
    again .beforeHead token
  match token with
  | .blanks _  => return .done
  | .doctype _ => return .done
  | .comment s => insertCommentBelow 0 s; return .done
  | .start t   =>
    if t.name = "html" then
      insertRoot t.attrs
      setMode .beforeHead
      return .done
    otherwise
  | .close t   => if endsAnything t then otherwise else return .done
  | _          => otherwise

/-- Inserts the head. -/
def insertHead (t : TagToken) : Build Unit := do
  insert t
  let id ← current?
  modify fun b => { b with head? := id, mode := .inHead }

/-- The rules before the head. -/
def beforeHeadRules (token : Token) : Build Next := do
  let otherwise : Build Next := do
    insertHead ⟨"head", [], false⟩
    return .again token
  match token with
  | .blanks _  => return .done
  | .doctype _ => return .done
  | .comment s => insertComment s; return .done
  | .start t   =>
    match t.name with
    | "html" => htmlStart t
    | "head" => insertHead t; return .done
    | _      => otherwise
  | .close t   => if endsAnything t then otherwise else return .done
  | _          => otherwise

/-- The rules in the head. -/
def inHeadRules (token : Token) : Build Next := do
  match ← headRules? token with
  | some next => return next
  | none      =>
    pop
    again .afterHead token

/-- The rules after the head. -/
def afterHeadRules (token : Token) : Build Next := do
  let otherwise : Build Next := do
    insertNamed "body"
    again .inBody token
  match token with
  | .blanks s  => insertText s; return .done
  | .doctype _ => return .done
  | .comment s => insertComment s; return .done
  | .start t   =>
    match t.name with
    | "html" => htmlStart t
    | "body" =>
      insert t
      keepBody
      setMode .inBody
      return .done
    | "frameset" =>
      insert t
      setMode .inFrameset
      return .done
    | "base" | "basefont" | "bgsound" | "link" | "meta" | "noframes" | "script" | "style"
    | "template" | "title" =>
      match (← get).head? with
      | some head =>
        modify fun b => { b with openElements := head :: b.openElements }
        let next ← headRules token
        removeOpen head
        return next
      | none => return .done
    | "head" => return .done
    | _      => otherwise
  | .close t   =>
    match t.name with
    | "template" => headRules token
    | "body" | "html" | "br" => otherwise
    | _ => return .done
  | _          => otherwise

/-- The rules in the text of an element. -/
def textRules (token : Token) : Build Next := do
  let leave : Build Unit := do
    pop
    modify fun b => { b with mode := b.returnMode }
  match token with
  | .blanks s => insertText s; return .done
  | .text s   => insertText s; return .done
  | .done     => leave; return .again .done
  | .close _  => leave; return .done
  | _         => return .done

/-- The rules in a template. -/
def templateRules (token : Token) : Build Next := do
  let switchTo (m : Mode) : Build Next := do
    modify fun b => { b with templateModes := m :: b.templateModes.tail }
    again m token
  match token with
  | .start t =>
    match t.name with
    | "base" | "basefont" | "bgsound" | "link" | "meta" | "noframes" | "script" | "style"
    | "template" | "title" => headRules token
    | "caption" | "colgroup" | "tbody" | "tfoot" | "thead" => switchTo .inTable
    | "col" => switchTo .inColumnGroup
    | "tr" => switchTo .inTableBody
    | "td" | "th" => switchTo .inRow
    | _ => switchTo .inBody
  | .close t => if t.name = "template" then headRules token else return .done
  | .done    => endInTemplate
  | token    => bodyRules token

/-- The rules after the body. -/
def afterBodyRules (token : Token) : Build Next := do
  match token with
  | .blanks _  => bodyRules token
  | .comment s =>
    insertCommentBelow ((← get).openElements.getLast?.getD 0) s
    return .done
  | .doctype _ => return .done
  | .done      => return .done
  | .start t   => if t.name = "html" then htmlStart t else again .inBody token
  | .close t   =>
    if t.name = "html" then
      setMode .afterAfterBody
      return .done
    again .inBody token
  | token      => again .inBody token

/-- The rules in a set of frames. -/
def framesetRules (token : Token) : Build Next := do
  match token with
  | .blanks s  => insertText s; return .done
  | .comment s => insertComment s; return .done
  | .start t   =>
    match t.name with
    | "html"     => htmlStart t
    | "frameset" => insert t; return .done
    | "frame"    => insertEmpty t; return .done
    | "noframes" => headRules token
    | _          => return .done
  | .close t   =>
    if t.name = "frameset" && 1 < (← get).openElements.length then
      pop
      if !(← currentIs ["frameset"]) then setMode .afterFrameset
    return .done
  | _          => return .done

/-- The rules after a set of frames. -/
def afterFramesetRules (token : Token) : Build Next := do
  match token with
  | .blanks s  => insertText s; return .done
  | .comment s => insertComment s; return .done
  | .start t   =>
    match t.name with
    | "html"     => htmlStart t
    | "noframes" => headRules token
    | _          => return .done
  | .close t   =>
    if t.name = "html" then setMode .afterAfterFrameset
    return .done
  | _          => return .done

/-- The rules after the root. -/
def afterAfterBodyRules (token : Token) : Build Next := do
  match token with
  | .blanks _  => bodyRules token
  | .comment s => insertCommentBelow 0 s; return .done
  | .doctype _ => return .done
  | .done      => return .done
  | .start t   => if t.name = "html" then htmlStart t else again .inBody token
  | token      => again .inBody token

/-- The rules after the root of a page with a set of frames. -/
def afterAfterFramesetRules (token : Token) : Build Next := do
  match token with
  | .blanks _  => bodyRules token
  | .comment s => insertCommentBelow 0 s; return .done
  | .start t   =>
    match t.name with
    | "html"     => htmlStart t
    | "noframes" => headRules token
    | _          => return .done
  | _          => return .done

/-- The rules of a mode. -/
def rules : Mode → Token → Build Next
  | .initial             => initialRules
  | .beforeHtml          => beforeHtmlRules
  | .beforeHead          => beforeHeadRules
  | .inHead              => inHeadRules
  | .afterHead           => afterHeadRules
  | .inBody              => bodyRules
  | .text                => textRules
  | .inTable             => tableRules
  | .inTableText         => tableTextRules
  | .inCaption           => captionRules
  | .inColumnGroup       => columnGroupRules
  | .inTableBody         => sectionRules
  | .inRow               => rowRules
  | .inCell              => cellRules
  | .inSelect            => selectRules
  | .inSelectInTable     => selectInTableRules
  | .inTemplate          => templateRules
  | .afterBody           => afterBodyRules
  | .inFrameset          => framesetRules
  | .afterFrameset       => afterFramesetRules
  | .afterAfterBody      => afterAfterBodyRules
  | .afterAfterFrameset  => afterAfterFramesetRules

/-- The rules of other vocabularies. -/
def foreignRules (token : Token) : Build Next := do
  match token with
  | .null      => insertText [replacementChar]; return .done
  | .blanks s  => insertText s; return .done
  | .text s    => insertText s; keepBody; return .done
  | .comment s => insertComment s; return .done
  | .start t   =>
    if endsForeign t then
      leaveForeign
      rules (← get).mode token
    else
      insertForeign (← currentTag).space t
      return .done
  | .close t   =>
    match foreignEnd t.name 0 (← openTags) with
    | .closes n =>
      modify fun b => { b with openElements := b.openElements.drop n }
      return .done
    | .html     => rules (← get).mode token
    | .nothing  => return .done
  | _          => return .done

/-- Deals with a token; `n` bounds how often it goes on to the rules of another mode. -/
def process : Nat → Token → Build Unit
  | 0,     _     => return ()
  | n + 1, token => do
    let b ← get
    let foreign := !b.openElements.isEmpty && isForeign (← currentTag) token
    match ← if foreign then foreignRules token else rules b.mode token with
    | .done        => return ()
    | .again token => process n token

/-- A token without the line feed that is left out at its start. -/
def withoutLineFeed : Token → Token
  | .blanks ('\n' :: s) => .blanks s
  | .text ('\n' :: s)   => .text s
  | t                   => t

/-- Deals with the next token of a page. -/
def take (token : Token) : Build Unit := do
  let token := if (← get).skipsLineFeed then withoutLineFeed token else token
  modify fun b => { b with skipsLineFeed := false }
  match token with
  | .blanks [] => return ()
  | token      => process (2 * (← get).openElements.length + 64) token

end Scrape.Html.Build
