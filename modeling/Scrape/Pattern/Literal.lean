import Scrape.Pattern.Match
import Scrape.Text.Find

/-!
# Pattern — Literal

The occurrences of a plain text, as matches: from the left and without overlap.  An empty text
occurs before each character and at the end.
-/

namespace Scrape.Pattern

/-- The occurrences of a text that is not empty in the text `s`, which starts at `place`, after the
occurrences `found`, latest first.  `fuel` bounds their number. -/
def occurrencesFrom (needle : List Char) : Nat → Nat → List Match → List Char → List Match
  | 0,        _,     found, _ => found.reverse
  | fuel + 1, place, found, s =>
    match Text.cut? needle s with
    | none                => found.reverse
    | some (before, rest) =>
      let start := place + before.length
      let stop := start + needle.length
      occurrencesFrom needle fuel stop (⟨start, stop, [some needle]⟩ :: found) rest

/-- The occurrences of a text in another. -/
def occurrences (needle s : List Char) : List Match :=
  if needle.isEmpty then (List.range (s.length + 1)).map fun i => ⟨i, i, [some []]⟩
  else occurrencesFrom needle s.length 0 [] s

/-- The text with the occurrences of a plain text, or the first of them, replaced by a template. -/
def replaceLiteral (needle : List Char) (all : Bool) (template s : List Char) : List Char :=
  let found := occurrences needle s
  let template := pieces template
  replaceMatches (fun m => m.expand [] template) s (if all then found else found.take 1)

end Scrape.Pattern
