import Scrape.Text.Case
import Scrape.Text.Category
import Scrape.Text.Find
import Scrape.Text.Property
import Scrape.Text.WritingSystem

/-!
# Pattern — Char set

Sets of characters as patterns write them: ranges, named properties, and what the set operations
and the indifference to case make of them.
-/

namespace Scrape.Pattern

open Scrape.Text (asciiLower after?)

/-- A property that a pattern can name. -/
inductive Property where
  | any
  | assigned
  | ascii
  | decimalDigit
  | space
  | word
  | alphabetic
  | lowercase
  | uppercase
  | emoji
  | pictographic
  | ideographic
  | math
  | diacritic
  /-- One of several general categories. -/
  | category (names : List String)
  /-- A script. -/
  | writingSystem (name : String)
  deriving DecidableEq

namespace Property

/-- Whether a table of runs holds of the character. -/
def holds (runs : Text.Runs Bool) (c : Char) : Bool := (runs.at? c.toNat).getD false

/-- Whether the character has the property. -/
def has : Property → Char → Bool
  | any,                _ => true
  | assigned,           c => Text.category c != "Cn"
  | ascii,              c => Text.isAscii c
  | decimalDigit,       c => Text.isDecimalDigit c
  | space,              c => Text.isBlank c
  | word,               c => Text.isWordChar c
  | alphabetic,         c => Text.isAlphabetic c
  | lowercase,          c => holds Text.lowercaseRuns c
  | uppercase,          c => holds Text.uppercaseRuns c
  | emoji,              c => holds Text.emojiRuns c
  | pictographic,       c => holds Text.extendedPictographicRuns c
  | ideographic,        c => holds Text.ideographicRuns c
  | math,               c => holds Text.mathRuns c
  | diacritic,          c => holds Text.diacriticRuns c
  | category names,     c => names.contains (Text.category c)
  | writingSystem name, c => Text.writingSystem c == name

/-- The general categories by their names in small letters, with what each stands for. -/
def categoryNames : List (List String × List String) :=
  [(["l", "letter"], ["Lu", "Ll", "Lt", "Lm", "Lo"]),
   (["lc", "casedletter"], ["Lu", "Ll", "Lt"]),
   (["lu", "uppercaseletter"], ["Lu"]), (["ll", "lowercaseletter"], ["Ll"]),
   (["lt", "titlecaseletter"], ["Lt"]), (["lm", "modifierletter"], ["Lm"]),
   (["lo", "otherletter"], ["Lo"]),
   (["m", "mark", "combiningmark"], ["Mn", "Mc", "Me"]),
   (["mn", "nonspacingmark"], ["Mn"]), (["mc", "spacingmark"], ["Mc"]),
   (["me", "enclosingmark"], ["Me"]),
   (["n", "number"], ["Nd", "Nl", "No"]),
   (["nd", "decimalnumber", "digit"], ["Nd"]), (["nl", "letternumber"], ["Nl"]),
   (["no", "othernumber"], ["No"]),
   (["p", "punctuation", "punct"], ["Pc", "Pd", "Ps", "Pe", "Pi", "Pf", "Po"]),
   (["pc", "connectorpunctuation"], ["Pc"]), (["pd", "dashpunctuation"], ["Pd"]),
   (["ps", "openpunctuation"], ["Ps"]), (["pe", "closepunctuation"], ["Pe"]),
   (["pi", "initialpunctuation"], ["Pi"]), (["pf", "finalpunctuation"], ["Pf"]),
   (["po", "otherpunctuation"], ["Po"]),
   (["s", "symbol"], ["Sm", "Sc", "Sk", "So"]),
   (["sm", "mathsymbol"], ["Sm"]), (["sc", "currencysymbol"], ["Sc"]),
   (["sk", "modifiersymbol"], ["Sk"]), (["so", "othersymbol"], ["So"]),
   (["z", "separator"], ["Zs", "Zl", "Zp"]),
   (["zs", "spaceseparator"], ["Zs"]), (["zl", "lineseparator"], ["Zl"]),
   (["zp", "paragraphseparator"], ["Zp"]),
   (["c", "other"], ["Cc", "Cf", "Cs", "Co", "Cn"]),
   (["cc", "control", "cntrl"], ["Cc"]), (["cf", "format"], ["Cf"]),
   (["co", "privateuse"], ["Co"]), (["cn", "unassigned"], ["Cn"])]

/-- The binary properties by their names in small letters. -/
def binaryNames : List (List String × Property) :=
  [(["any"], any), (["assigned"], assigned), (["ascii"], ascii),
   (["alphabetic", "alpha"], alphabetic), (["lowercase", "lower"], lowercase),
   (["uppercase", "upper"], uppercase), (["whitespace", "wspace", "space"], space),
   (["emoji"], emoji), (["extendedpictographic", "extpict"], pictographic),
   (["ideographic", "ideo"], ideographic), (["math"], math), (["diacritic", "dia"], diacritic)]

/-- Short names of scripts, with the long ones. -/
def writingSystemAliases : List (String × String) :=
  [("arab", "Arabic"), ("armn", "Armenian"), ("beng", "Bengali"), ("bopo", "Bopomofo"),
   ("zyyy", "Common"), ("cyrl", "Cyrillic"), ("deva", "Devanagari"), ("ethi", "Ethiopic"),
   ("geor", "Georgian"), ("grek", "Greek"), ("gujr", "Gujarati"), ("guru", "Gurmukhi"),
   ("hani", "Han"), ("hang", "Hangul"), ("hebr", "Hebrew"), ("hira", "Hiragana"),
   ("zinh", "Inherited"), ("qaai", "Inherited"), ("kana", "Katakana"), ("khmr", "Khmer"),
   ("laoo", "Lao"), ("latn", "Latin"), ("mlym", "Malayalam"), ("mong", "Mongolian"),
   ("mymr", "Myanmar"), ("orya", "Oriya"), ("sinh", "Sinhala"), ("syrc", "Syriac"),
   ("taml", "Tamil"), ("telu", "Telugu"), ("thaa", "Thaana"), ("tibt", "Tibetan"),
   ("yiii", "Yi")]

/-- A name in small letters without blanks, hyphens and low lines. -/
def normalName (name : List Char) : String :=
  let letters := asciiLower (name.filter fun c => c ≠ '_' && c ≠ '-' && c ≠ ' ')
  String.ofList (match after? ['i', 's'] letters with
    | some rest => if rest.isEmpty then letters else rest
    | none      => letters)

/-- The property of a general category. -/
def ofCategory? (name : List Char) : Option Property :=
  let n := normalName name
  (categoryNames.find? fun e => e.1.contains n).map fun e => category e.2

/-- The property of a script. -/
def ofWritingSystem? (name : List Char) : Option Property :=
  let n := normalName name
  let long := (writingSystemAliases.find? fun e => e.1 = n).map Prod.snd
  ((long.map fun l => [l]).getD Text.writingSystems).find? (fun s =>
    long.isSome || normalName s.toList = n) |>.map writingSystem

/-- The property a name stands for: a binary property, a general category or a script. -/
def ofName? (name : List Char) : Option Property :=
  let n := normalName name
  match binaryNames.find? fun e => e.1.contains n with
  | some e => some e.2
  | none   => (ofCategory? name).or (ofWritingSystem? name)

/-- The property of a name and the value it is to have. -/
def ofNameValue? (name value : List Char) : Option Property :=
  let n := normalName name
  if n = "gc" || n = "generalcategory" then ofCategory? value
  else if n = "sc" || n = "script" || n = "scx" || n = "scriptextensions" then
    ofWritingSystem? value
  else none

/-- About how much of the room for patterns the property takes. -/
def cost : Property → Nat
  | word | alphabetic | assigned => 45000
  | category names               => if names.length = 1 then 8000 else 40000
  | decimalDigit                 => 6000
  | any | ascii | space          => 500
  | _                            => 10000

end Property

/-- A set of characters. -/
inductive CharSet where
  | empty
  | range (low high : Char)
  | property (p : Property)
  | union (s t : CharSet)
  | inter (s t : CharSet)
  | diff (s t : CharSet)
  | symmDiff (s t : CharSet)
  | compl (s : CharSet)
  /-- The characters that differ in case only from one of the set. -/
  | anyCase (s : CharSet)

namespace CharSet

/-- Whether the character is in the set. -/
def has : CharSet → Char → Bool
  | empty,        _ => false
  | range lo hi,  c => lo ≤ c && c ≤ hi
  | property p,   c => p.has c
  | union s t,    c => s.has c || t.has c
  | inter s t,    c => s.has c && t.has c
  | diff s t,     c => s.has c && !t.has c
  | symmDiff s t, c => s.has c != t.has c
  | compl s,      c => !s.has c
  | anyCase s,    c => s.has c || (Text.caseVariants c).any s.has

/-- The set of one character. -/
def single (c : Char) : CharSet := range c c

/-- The set of several characters. -/
def ofList (cs : List Char) : CharSet := cs.foldr (fun c s => union (single c) s) empty

/-- The complement, if `negated`. -/
def negatedIf (negated : Bool) (s : CharSet) : CharSet := if negated then compl s else s

/-- The set without regard to case, if `folded`. -/
def anyCaseIf (folded : Bool) (s : CharSet) : CharSet := if folded then anyCase s else s

/-- All characters but the end of a line. -/
def notNewline : CharSet := compl (single '\n')

/-- About how much of the room for patterns the set takes. -/
def cost : CharSet → Nat
  | empty        => 50
  | range _ _    => 100
  | property p   => p.cost
  | union s t    => s.cost + t.cost
  | inter s t    => max s.cost t.cost
  | diff s t     => max s.cost t.cost
  | symmDiff s t => s.cost + t.cost
  | compl s      => s.cost + 200
  | anyCase s    => s.cost

end CharSet
end Scrape.Pattern
