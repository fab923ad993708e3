import Scrape.Evaluate.Suffix
import Scrape.Rule.Segment
import Scrape.Rule.Span
import Scrape.Rule.Split

/-!
# Evaluate — Template

Templates in rules, between double braces.  What stands in one is a key of the session, a rule or a
script; and what stands around them tells whether the rule with its templates filled in is still a
rule, or the result (`selects`).
-/

namespace Scrape.Evaluate

open Scrape.Rule (Tags fillSpans? hasScript split)
open Scrape.Text (contains startsWith trim)

/-- The tags of a template. -/
def templateTags : Tags := ⟨['\x7b', '\x7b'], ['\x7d', '\x7d']⟩

/-- What a step of a rule starts with. -/
def ruleMarks : List (List Char) :=
  ["tag.".toList, "class.".toList, "id.".toList, "text.".toList, "children".toList]

/-- Whether what stands in a template is a rule. -/
def isRule (s : List Char) : Bool :=
  s.head?.any (fun c => c = '@' || c = '$' || c = '/') || ruleMarks.any fun m => contains m s

/-- Whether a rule with templates selects from the document, by what stands outside of them. -/
def selects (rule : List Char) : Bool :=
  let outside := (fillSpans? templateTags (fun _ => some []) rule).getD rule
  let main := trim (splitSuffix outside).1
  if main.isEmpty then false
  else
    let steps := split [['@']] main
    hasScript main
      || main.head?.any (fun c => c = '@' || c = '$')
      || startsWith ['/', '/'] main
      || (1 < steps.length && !contains "://".toList main)
      || steps.any fun step => ruleMarks.any fun m => startsWith m step

end Scrape.Evaluate
