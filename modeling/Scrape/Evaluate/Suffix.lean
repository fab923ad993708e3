import Scrape.Pattern.Match
import Scrape.Rule.Replacement
import Scrape.Text.Find

/-!
# Evaluate — Suffix

The tail of a rule that rewrites its result.  After `##` stands a pattern and after another `##` its
replacement; with a third `##` the first match alone is replaced.
-/

namespace Scrape.Evaluate

/-- The tail of a rule. -/
structure Suffix where
  pattern : List Char
  replacement : List Char
  /-- Whether the first match alone is replaced. -/
  single : Bool
  deriving DecidableEq

/-- The rule without its tail, and its tail, which is empty if there is none. -/
def splitSuffix (rule : List Char) : List Char × Suffix :=
  match Text.splitOn ['#', '#'] rule with
  | []                                       => ([], ⟨[], [], false⟩)
  | [main]                                   => (main, ⟨[], [], false⟩)
  | [main, pattern]                          => (main, ⟨pattern, [], false⟩)
  | [main, pattern, replacement]             => (main, ⟨pattern, replacement, false⟩)
  | main :: pattern :: replacement :: _ :: _ => (main, ⟨pattern, replacement, true⟩)

/-- The result rewritten.  A pattern that is none leaves nothing of it. -/
def Suffix.apply (suffix : Suffix) (value : String) : String :=
  if value.isEmpty || suffix.pattern.isEmpty then value
  else
    match Pattern.parse? suffix.pattern with
    | some p =>
      String.ofList (p.replace (!suffix.single) (Rule.template suffix.replacement) value.toList)
    | none   => ""

end Scrape.Evaluate
