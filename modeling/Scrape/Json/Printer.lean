import Scrape.Json.Basic

/-!
# Json — Printer

The text of a value: compact (`Json.text`), indented by two spaces a level (`Json.prettyText`), and
the form in which a rule hands a value out (`Json.output`): a string as it is, an array one item a
line, null as nothing.
-/

namespace Scrape.Json

/-- The lower four bits of a number as a hexadecimal digit. -/
def hexDigit (n : Nat) : Char := Text.digitChar (n % 16)

/-- A character as it stands within a quoted string: the quote, the backslash and the controls are
written with a backslash, all else as it is. -/
def escapeChar (c : Char) : List Char :=
  if c = '"' then ['\\', '"']
  else if c = '\\' then ['\\', '\\']
  else if c.toNat = 8 then ['\\', 'b']
  else if c.toNat = 12 then ['\\', 'f']
  else if c = '\n' then ['\\', 'n']
  else if c = '\r' then ['\\', 'r']
  else if c = '\t' then ['\\', 't']
  else if c.toNat < 32 then ['\\', 'u', '0', '0', hexDigit (c.toNat / 16), hexDigit c.toNat]
  else [c]

/-- The string between quotes. -/
def quoted (s : String) : String := String.ofList ('"' :: s.toList.flatMap escapeChar ++ ['"'])

mutual

/-- The text of a value without blanks. -/
def text : Json → String
  | .null          => "null"
  | .bool b        => if b then "true" else "false"
  | .number n      => n.text
  | .string s      => quoted s
  | .array items   => "[" ++ ",".intercalate (itemTexts items) ++ "]"
  | .object fields => "\x7b" ++ ",".intercalate (fieldTexts fields) ++ "\x7d"

/-- The texts of the items of an array. -/
def itemTexts : List Json → List String
  | []      => []
  | v :: vs => text v :: itemTexts vs

/-- The texts of the fields of an object. -/
def fieldTexts : List (String × Json) → List String
  | []           => []
  | (k, v) :: fs => (quoted k ++ ":" ++ text v) :: fieldTexts fs

end

/-- A new line at a level of indentation. -/
def newLine (level : Nat) : String := String.ofList ('\n' :: List.replicate (2 * level) ' ')

mutual

/-- The text of a value at a level of indentation, one item or field a line; an empty array or
object stays on its line. -/
def prettyTextAt (level : Nat) : Json → String
  | .array (v :: vs)   =>
    "[" ++ newLine (level + 1)
      ++ ("," ++ newLine (level + 1)).intercalate (prettyItems (level + 1) (v :: vs))
      ++ newLine level ++ "]"
  | .object (f :: fs)  =>
    "\x7b" ++ newLine (level + 1)
      ++ ("," ++ newLine (level + 1)).intercalate (prettyFields (level + 1) (f :: fs))
      ++ newLine level ++ "\x7d"
  | .array []          => "[]"
  | .object []         => "\x7b\x7d"
  | .null              => "null"
  | .bool b            => if b then "true" else "false"
  | .number n          => n.text
  | .string s          => quoted s

/-- The indented texts of the items of an array. -/
def prettyItems (level : Nat) : List Json → List String
  | []      => []
  | v :: vs => prettyTextAt level v :: prettyItems level vs

/-- The indented texts of the fields of an object. -/
def prettyFields (level : Nat) : List (String × Json) → List String
  | []           => []
  | (k, v) :: fs => (quoted k ++ ": " ++ prettyTextAt level v) :: prettyFields level fs

end

/-- The indented text of a value. -/
def prettyText (v : Json) : String := prettyTextAt 0 v

mutual

/-- The value as a rule hands it out: a string as it is, an array one item a line without its
nulls, null as nothing and an object as its text. -/
def output : Json → String
  | .null          => ""
  | .bool b        => if b then "true" else "false"
  | .number n      => n.text
  | .string s      => s
  | .array items   => "\n".intercalate (itemOutputs items)
  | .object fields => text (.object fields)

/-- The outputs of the items that are not null. -/
def itemOutputs : List Json → List String
  | []      => []
  | v :: vs => if v.isNull then itemOutputs vs else output v :: itemOutputs vs

end

end Scrape.Json
