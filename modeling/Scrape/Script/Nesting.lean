/-!
# Script — Nesting

How deep the brackets of a script are nested.  The depth is measured on the characters, before
anything is parsed, so that what is parsed afterwards is known to be shallow.
-/

namespace Scrape.Script.Nesting

/-- Where the measure stands: in code or a template, in a quoted text, or in a comment. -/
inductive Place where
  | code
  | quoted (quote : Char)
  | lineComment
  /-- Whether the character before was a star. -/
  | comment (star : Bool)
  deriving DecidableEq

/-- The brackets and templates that are open, the innermost first, how many they are, and the most
there have been. -/
structure Open where
  marks : List Char
  depth : Nat
  deepest : Nat

/-- Opens a bracket or a template. -/
def Open.push (o : Open) (c : Char) : Open :=
  ⟨c :: o.marks, o.depth + 1, max o.deepest (o.depth + 1)⟩

/-- Closes the innermost bracket, of whatever kind. -/
def Open.pop (o : Open) : Open := ⟨o.marks.tail, o.depth - 1, o.deepest⟩

/-- Whether the innermost mark is that of a template. -/
def Open.inTemplate (o : Open) : Bool := o.marks.head? = some '\x60'

/-- Whether the character opens a bracket or a template. -/
def opens (c : Char) : Bool := c = '(' || c = '[' || c = '\x7b' || c = '\x60'

/-- Whether the character closes a bracket. -/
def closes (c : Char) : Bool := c = ')' || c = ']' || c = '\x7d'

/-- Measures a text from a place on. -/
def measure : Place → Open → List Char → Nat
  | _,            o, []              => o.deepest
  | .lineComment, o, c :: r          => measure (if c = '\n' then .code else .lineComment) o r
  | .comment star, o, c :: r         =>
    measure (if star && c = '/' then .code else .comment (c = '*')) o r
  | .quoted q,    o, '\\' :: _ :: r  => measure (.quoted q) o r
  | .quoted q,    o, c :: r          => measure (if c = q then .code else .quoted q) o r
  | .code,        o, c :: r          =>
    if o.inTemplate then
      match c, r with
      | '\\',   _ :: r      => measure .code o r
      | '\x60', r           => measure .code o.pop r
      | '$',    '\x7b' :: r => measure .code (o.push '\x7b') r
      | _,      r           => measure .code o r
    else if c = '"' || c = '\'' then measure (.quoted c) o r
    else if opens c then measure .code (o.push c) r
    else if closes c then measure .code o.pop r
    else
      match c, r with
      | '/', '/' :: r => measure .lineComment o r
      | '/', '*' :: r => measure (.comment false) o r
      | _,   r        => measure .code o r

/-- The deepest nesting of brackets and templates in a script, without what is in quotes or
comments. -/
def depth (source : List Char) : Nat := measure .code ⟨[], 0, 0⟩ source

end Scrape.Script.Nesting
