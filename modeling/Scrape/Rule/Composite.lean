import Scrape.Rule.Split

/-!
# Rule — Composite

Rules made of rules.  `&&` takes the results of all operands, `||` those of the first operand that
has any, and `%%` the results in turns.  The first operator at the top level decides on which one a
rule is split; the operands are rules again, so that a rule is a tree (`Composite.Tree`).
-/

namespace Scrape.Rule

open Scrape.Text (trim)

/-- An operator that joins rules. -/
inductive Composite where
  /-- All results. -/
  | all
  /-- The results of the first operand that has some. -/
  | any
  /-- The results in turns. -/
  | interleave
  deriving DecidableEq

namespace Composite

/-- How the operator is written. -/
def token : Composite → List Char
  | all        => ['&', '&']
  | any        => ['|', '|']
  | interleave => ['%', '%']

/-- The operators in the order in which they are tried. -/
def operators : List Composite := [all, any, interleave]

/-- One item of each list that has one, and so on, for a number of rounds. -/
def rounds {α : Type} : Nat → List (List α) → List α
  | 0,     _     => []
  | n + 1, lists => lists.filterMap List.head? ++ rounds n (lists.map List.tail)

/-- The first items of all lists, then the second ones, until all are used up. -/
def inTurns {α : Type} (lists : List (List α)) : List α :=
  rounds ((lists.map List.length).foldl max 0) lists

/-- The results of the operator, from the results of its operands. -/
def combine {α : Type} : Composite → List (List α) → List α
  | all,        lists => lists.flatten
  | any,        lists => (lists.find? fun l => !l.isEmpty).getD []
  | interleave, lists => inTurns lists

end Composite

/-- The operator on which a rule is split, and its operands, of which there are two or more. -/
def splitComposite? (rule : List Char) : Option (Composite × List (List Char)) :=
  match firstSeparator? (Composite.operators.map Composite.token) rule with
  | none     => none
  | some sep =>
    match Composite.operators.find? fun op => op.token = sep with
    | none    => none
    | some op =>
      let parts := split [sep] rule
      if parts.length < 2 then none else some (op, parts)

namespace Composite

/-- A rule with its operators taken apart. -/
inductive Tree where
  /-- A rule without an operator. -/
  | plain (rule : List Char)
  /-- An operator on rules. -/
  | join (op : Composite) (parts : List Tree)

/-- The tree of a rule, to a number of levels. -/
def Tree.ofRule : Nat → List Char → Tree
  | 0,          rule => .plain rule
  | levels + 1, rule =>
    match splitComposite? rule with
    | none             => .plain rule
    | some (op, parts) => .join op (parts.map (Tree.ofRule levels))

/-- The tree of a trimmed rule.  An operand is shorter than the rule it is part of, so that the
length of the rule bounds the levels. -/
def tree (rule : List Char) : Tree := Tree.ofRule rule.length rule

mutual

/-- The results of a tree, from the results of the rules at its leaves. -/
def Tree.results {α : Type} (leaf : List Char → List α) : Tree → List α
  | .plain rule    => leaf rule
  | .join op parts => op.combine (resultsOfAll leaf parts)

/-- The results of each of several trees. -/
def Tree.resultsOfAll {α : Type} (leaf : List Char → List α) : List Tree → List (List α)
  | []      => []
  | t :: ts => t.results leaf :: resultsOfAll leaf ts

end

end Composite

/-- The results of a rule, from the results of rules without an operator; an empty rule has
none. -/
def composed {α : Type} (leaf : List Char → List α) (rule : List Char) : List α :=
  let rule := trim rule
  if rule.isEmpty then [] else (Composite.tree rule).results leaf

end Scrape.Rule
