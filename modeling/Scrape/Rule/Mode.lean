import Scrape.Rule.Segment

/-!
# Rule — Mode

How a rule addresses a document.  A tag in front of the rule decides; without one the first
characters do, and failing these the kind of the document.
-/

namespace Scrape.Rule

open Scrape.Text (after? trim trimStart equalIgnoringCase contains startsWith)

/-- How a rule is evaluated. -/
inductive Mode where
  /-- A chain of selection steps. -/
  | chain
  /-- A path into a JSON value. -/
  | json
  /-- A location path. -/
  | xpath
  /-- A script. -/
  | script
  deriving DecidableEq

/-- The tags that decide on a mode, in the order in which they are tried. -/
def modeTags : List (List Char × Mode) :=
  [("@XPath:".toList, .xpath), ("XPath:".toList, .xpath), ("@Json:".toList, .json),
   ("@JSon:".toList, .json), ("Json:".toList, .json), ("JSon:".toList, .json),
   ("@css:".toList, .chain), ("Css:".toList, .chain), ("@@".toList, .chain)]

/-- The tag a rule starts with, in small or capital letters, and its mode. -/
def leadingTag? (rule : List Char) : Option (List Char × Mode) :=
  modeTags.find? fun (tag, _) =>
    tag.length ≤ rule.length && equalIgnoringCase (rule.take tag.length) tag

/-- The mode of a rule, on a JSON value or on a document tree. -/
def mode (rule : List Char) (isJson : Bool) : Mode :=
  let rule := trim rule
  let tagged := (leadingTag? rule).map Prod.snd
  if startsWith ['/'] rule || tagged = some .xpath then .xpath
  else if startsWith ['$'] rule || tagged = some .json then .json
  else if hasScript rule then .script
  else if tagged = some .chain then .chain
  else if contains ['\x7b', '$', '.'] rule || isJson then .json
  else .chain

/-- Whether the rule is tagged as a CSS selector, to be taken as it is. -/
def isCssTagged (rule : List Char) : Bool :=
  match leadingTag? (trim rule) with
  | some (tag, _) => equalIgnoringCase tag "@css:".toList || equalIgnoringCase tag "css:".toList
  | none          => false

/-- The rule without its tag and the blanks around it; a rule without a tag is kept as it is. -/
def withoutTag (rule : List Char) : List Char :=
  let trimmed := trimStart rule
  match leadingTag? trimmed with
  | some (tag, _) => trimStart (trimmed.drop tag.length)
  | none          => rule

end Scrape.Rule
