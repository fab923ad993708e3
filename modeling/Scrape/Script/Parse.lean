import Scrape.Script.Reader.Stmt
import Scrape.Script.Nesting

/-!
# Script — Parse

Scripts from texts.  A script is the body of a function, so that it may return; it is read as such,
and nothing but that one function may come out.
-/

namespace Scrape.Script

/-- Why a text is no script. -/
inductive ParseError where
  /-- Its brackets are nested too deep. -/
  | nested
  /-- It ends the function it is the body of. -/
  | escapes
  /-- It follows no rule of the grammar. -/
  | malformed
  deriving DecidableEq

/-- The most brackets of a script that are nested. -/
def maxNesting : Nat := 32

/-- The text of the function that has a script as its body. -/
def functionText (source : List Char) : List Char :=
  "function __rule__() \x7b\n".toList ++ source ++ "\n\x7d".toList

/-- The statements of a script. -/
def parse (source : List Char) : Except ParseError (List Stmt) :=
  if Nesting.depth source > maxNesting then .error .nested
  else
    match readProgram? (functionText source) with
    | none                      => .error .malformed
    | some [.function _ _ body] => .ok body
    | some _                    => .error .escapes

end Scrape.Script
