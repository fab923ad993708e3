import Scrape.Text.Blank
import Scrape.Text.Find

/-!
# Rule — Split

Cutting a rule at its separators.  A separator counts only at the top level: not within a quoted
literal, not within round, square or curly brackets, and not after a backslash, which keeps the
next character from meaning anything.
-/

namespace Scrape.Rule

open Scrape.Text (after? trim)

/-- Where a scan of a rule stands: in which quote, how deep in brackets, after a backslash or not.
-/
structure Scan where
  quote : Option Char := none
  depth : Nat := 0
  escaped : Bool := false
  deriving DecidableEq

namespace Scan

/-- The scan after a quote character: it opens a literal, closes the one of its kind, and means
nothing within one of the other kind. -/
def onQuote (st : Scan) (c : Char) : Scan :=
  match st.quote with
  | none   => { st with quote := some c }
  | some q => if q = c then { st with quote := none } else st

/-- The scan after one more character. -/
def step (st : Scan) (c : Char) : Scan :=
  if st.escaped then { st with escaped := false }
  else if c = '\\' then { st with escaped := true }
  else if c = '"' || c = '\'' then st.onQuote c
  else if st.quote.isSome then st
  else if c = '(' || c = '[' || c = '\x7b' then { st with depth := st.depth + 1 }
  else if c = ')' || c = ']' || c = '\x7d' then { st with depth := st.depth - 1 }
  else st

/-- Whether the character, met here, can start a separator. -/
def separates (st : Scan) (c : Char) : Bool :=
  !st.escaped && st.quote.isNone && st.depth == 0
    && ! ['\\', '"', '\'', '(', '[', '\x7b', ')', ']', '\x7d'].contains c

end Scan

/-- The first of the separators that `s` starts with. -/
def separatorAt? (separators : List (List Char)) (s : List Char) : Option (List Char) :=
  separators.find? fun sep => !sep.isEmpty && Text.startsWith sep s

/-- A rule cut at its top-level separators: the pieces that a separator ends, each with it, and the
last piece. -/
structure Cuts where
  ended : List (List Char × List Char)
  last : List Char
  deriving DecidableEq

/-- Cuts the rest of a rule.  `skip` characters still belong to a separator, `piece` holds the
characters of the piece so far in reverse, and `ended` the pieces before it, latest first. -/
def cutsFrom (separators : List (List Char)) (st : Scan) (skip : Nat) (piece : List Char)
    (ended : List (List Char × List Char)) : List Char → Cuts
  | []     => ⟨ended.reverse, piece.reverse⟩
  | c :: s =>
    match skip with
    | skip + 1 => cutsFrom separators st skip piece ended s
    | 0 =>
      match if st.separates c then separatorAt? separators (c :: s) else none with
      | some sep => cutsFrom separators st (sep.length - 1) [] ((piece.reverse, sep) :: ended) s
      | none     => cutsFrom separators (st.step c) 0 (c :: piece) ended s

/-- A rule cut at its top-level separators. -/
def cuts (separators : List (List Char)) (rule : List Char) : Cuts :=
  cutsFrom separators {} 0 [] [] rule

/-- The pieces between the top-level separators, trimmed, the empty ones left out; of a rule
without a separator the one piece, be it empty. -/
def split (separators : List (List Char)) (rule : List Char) : List (List Char) :=
  let cut := cuts separators rule
  if cut.ended.isEmpty then [trim rule]
  else ((cut.ended.map Prod.fst ++ [cut.last]).map trim).filter fun p => !p.isEmpty

/-- The first top-level separator of a rule. -/
def firstSeparator? (separators : List (List Char)) (rule : List Char) : Option (List Char) :=
  (cuts separators rule).ended.head?.map Prod.snd

end Scrape.Rule
