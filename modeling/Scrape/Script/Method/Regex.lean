import Scrape.Pattern.Literal
import Scrape.Script.Operator

/-!
# Script — Method — Regular expressions

What scripts search for, regular expressions and plain texts, and the values of matches.
-/

namespace Scrape.Script

/-- The pattern of a regular expression: its flags for letter case, lines and points stand in front,
and a slash needs no escape. -/
def patternText (source flags : String) : List Char :=
  let marks := flags.toList.filter fun c => c = 'i' || c = 'm' || c = 's'
  let body := Text.replaceAll ['\\', '/'] ['/'] source.toList
  if marks.isEmpty then body else '(' :: '?' :: marks ++ ')' :: body

/-- The pattern of a regular expression, if it is one. -/
def compile (source flags : String) : Outcome Pattern.Compiled :=
  let text := patternText source flags
  match Pattern.parse? text with
  | some p => .ok p
  | none   => .error ⟨.pattern (String.ofList text), rfl⟩

/-- What is searched for. -/
inductive Needle where
  | literal (text : List Char)
  | pattern (p : Pattern.Compiled)

namespace Needle

/-- The matches in a text, or the first of them. -/
def matchesIn (needle : Needle) (all : Bool) (s : List Char) : List Pattern.Match :=
  match needle with
  | literal t =>
    let found := Pattern.occurrences t s
    if all then found else found.take 1
  | pattern p => if all then p.allMatches s else (p.match? s).toList

/-- The text with its matches, or the first of them, replaced by a template. -/
def replace (needle : Needle) (all : Bool) (template s : List Char) : List Char :=
  match needle with
  | literal t => Pattern.replaceLiteral t all template s
  | pattern p => p.replace all template s

/-- What a value asks to search for, and whether it asks for all matches. -/
def ofValue (v : Value) : Outcome (Needle × Bool) :=
  match v with
  | .regex source flags =>
    (compile source flags).map fun p => (.pattern p, flags.toList.contains 'g')
  | v => .ok (.literal v.text.toList, false)

end Needle

/-- The value of a group of a match. -/
def groupValue (group : Option (List Char)) : Value := group.elim .undefined .ofChars

/-- The value of the first match: the texts of its groups, or null. -/
def matchValue (p : Pattern.Compiled) (s : List Char) : Value :=
  match p.match? s with
  | some m => .array (m.groups.map groupValue)
  | none   => .null

end Scrape.Script
