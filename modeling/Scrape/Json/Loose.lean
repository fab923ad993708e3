import Scrape.Json.Parser
import Scrape.Text.Blank
import Scrape.Text.Category

/-!
# Json — Loose

JSON as it is written in rules: with single quotes, with commas after the last item, and with keys
without quotes.  Such a text is brought into the form of JSON and then read.
-/

namespace Scrape.Json.Loose

/-- Whether the character closes an array or an object. -/
def closes (c : Char) : Bool := c = '\x7d' || c = ']'

/-- Leaves out the commas before closing brackets, with the blanks after them; `fuel` bounds the
length of the text. -/
def dropCommasFrom : Nat → List Char → List Char
  | 0,        s  => s
  | _ + 1,    [] => []
  | fuel + 1, c :: r =>
    if c = ',' then
      match r.dropWhile Text.isBlank with
      | d :: after =>
        if closes d then d :: dropCommasFrom fuel after else c :: dropCommasFrom fuel r
      | []         => c :: dropCommasFrom fuel r
    else c :: dropCommasFrom fuel r

/-- Leaves out the commas before closing brackets. -/
def dropCommas (s : List Char) : List Char := dropCommasFrom s.length s

/-- Whether the character may stand in a key without quotes. -/
def isKeyChar (c : Char) : Bool := Text.isWordChar c || c = '$'

/-- The blanks and the key without quotes at the start of a text, and what follows its colon. -/
def readKey? (s : List Char) : Option (List Char × List Char × List Char) :=
  let (blanks, r) := s.span Text.isBlank
  let (key, r) := r.span isKeyChar
  if key.isEmpty then none
  else
    match r.dropWhile Text.isBlank with
    | ':' :: after => some (blanks, key, after)
    | _            => none

/-- Puts quotes around keys; `fuel` bounds the length of the text. -/
def quoteKeysFrom : Nat → List Char → List Char
  | 0,        s  => s
  | _ + 1,    [] => []
  | fuel + 1, c :: r =>
    if c = '\x7b' || c = ',' then
      match readKey? r with
      | some (blanks, key, after) =>
        c :: blanks ++ '"' :: key ++ '"' :: ':' :: quoteKeysFrom fuel after
      | none => c :: quoteKeysFrom fuel r
    else c :: quoteKeysFrom fuel r

/-- Puts quotes around keys. -/
def quoteKeys (s : List Char) : List Char := quoteKeysFrom s.length s

/-- The text in the form of JSON. -/
def strict (s : List Char) : List Char :=
  quoteKeys (dropCommas (s.map fun c => if c = '\'' then '"' else c))

/-- The value of a text that is JSON or nearly so. -/
def parse? (s : List Char) : Option Json := (Json.parse? s).or (Json.parse? (strict s))

end Scrape.Json.Loose
