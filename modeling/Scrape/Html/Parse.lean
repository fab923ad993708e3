import Scrape.Html.Build.Page

/-!
# Html — Parse

The page of a text.  Every text is a page: what follows no rule is mended.
-/

namespace Scrape.Html

/-- The text with one line feed at the end of each line, and without the mark of its byte order. -/
def normalized (s : List Char) : List Char :=
  let s := match s with
    | c :: r => if c.toNat = 0xFEFF then r else s
    | []     => []
  lines [] s
where
  /-- The text with one line feed at the end of each line, after the characters `acc`, which are
  held in reverse. -/
  lines (acc : List Char) : List Char → List Char
    | []               => acc.reverse
    | '\r' :: '\n' :: r => lines ('\n' :: acc) r
    | '\r' :: r        => lines ('\n' :: acc) r
    | c :: r           => lines (c :: acc) r

/-- Builds a page from the tokens of a text; `fuel` bounds their number. -/
def buildFrom (size : Nat) : Nat → Builder → List Char → Builder
  | 0,        b, _ => b
  | fuel + 1, b, s =>
    let foreign := ((b.openElements.head?).bind b.forest.tag?).any (·.space != .html)
    let (token, r) := readToken size b.content foreign s
    let b := match token with
      | .close _ => { b with content := .markup }
      | _        => b
    let (_, b) := (Build.take token).run b
    match token with
    | .done => b
    | _     => buildFrom size fuel b r

/-- The root of the page of a text. -/
def parse (s : List Char) : Element :=
  let s := normalized s
  let b := buildFrom s.length (s.length + 2) Builder.initial s
  let root? := (b.forest.children 0).toList.findSome? fun id =>
    match b.forest.node? (b.forest.size + 1) id with
    | some (.element t c) => some (Element.top t c)
    | _                   => none
  root?.getD (.top ⟨.html, "html", []⟩ [])

end Scrape.Html
