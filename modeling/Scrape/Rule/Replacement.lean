import Scrape.Text.Integer

/-!
# Rule — Replacement

The replacement part of a rule or of a script.  In it `$1` stands for a group of the match, `$&`
for the match, `$<name>` for a named group and `$$` for a dollar sign; it is rewritten into a
template in which each reference is between braces and each dollar sign that stands for itself is
doubled.
-/

namespace Scrape.Rule

open Scrape.Text (isDigit)

/-- A reference to a group, as templates write it. -/
def braced (name : List Char) : List Char := '$' :: '\x7b' :: name ++ ['\x7d']

/-- The template of the rest of a replacement text; `fuel` bounds its length. -/
def templateFrom : Nat → List Char → List Char
  | 0,        _  => []
  | _ + 1,    [] => []
  | fuel + 1, c :: s =>
    if c ≠ '$' then c :: templateFrom fuel s
    else match s with
    | '$' :: r => '$' :: '$' :: templateFrom fuel r
    | '&' :: r => braced ['0'] ++ templateFrom fuel r
    | '<' :: r =>
      let name := r.takeWhile (· ≠ '>')
      match r.dropWhile (· ≠ '>') with
      | '>' :: rest =>
        if name.isEmpty then '$' :: '$' :: templateFrom fuel s
        else braced name ++ templateFrom fuel rest
      | _ => '$' :: '$' :: templateFrom fuel s
    | d :: e :: r =>
      if isDigit d then
        if isDigit e then braced [d, e] ++ templateFrom fuel r
        else braced [d] ++ templateFrom fuel (e :: r)
      else '$' :: '$' :: templateFrom fuel s
    | [d] => if isDigit d then braced [d] else '$' :: '$' :: templateFrom fuel s
    | []  => ['$', '$']

/-- The template of a replacement text. -/
def template (replacement : List Char) : List Char :=
  templateFrom (replacement.length + 1) replacement

end Scrape.Rule
