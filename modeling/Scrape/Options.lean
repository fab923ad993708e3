/-!
# Options

What the evaluation of rules depends on besides the rule and the node.
-/

namespace Scrape

/-- The options of an evaluation. -/
structure Options where
  /-- The address of the page, from which links are made absolute. -/
  baseUrl? : Option String := none
  /-- Whether links that lead nowhere and links of mere navigation are left out. -/
  noiseFilter : Bool := true
  /-- Whether a list or table that is selected alone stands for its rows. -/
  unwrapLists : Bool := true
  /-- Whether scripts are run. -/
  scripts : Bool := true
  /-- The number of statements and rounds of loops that a script may take. -/
  stepLimit : Nat := 100000
  deriving DecidableEq

end Scrape
