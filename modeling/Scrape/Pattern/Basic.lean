import Scrape.Pattern.CharSet

/-!
# Pattern — Basic

Regular expressions.  Alternatives and repetitions are tried in order, so that of the matches that
start leftmost the first one found counts.
-/

namespace Scrape

namespace Pattern

/-- A condition on a place in a text. -/
inductive Look where
  | textStart
  | textEnd
  | lineStart
  | lineEnd
  | wordBoundary
  | notWordBoundary
  | wordStart
  | wordEnd
  | wordStartHalf
  | wordEndHalf
  deriving DecidableEq

namespace Look

/-- Whether the condition holds between two characters, either of which may be missing. -/
def holds (look : Look) (before after : Option Char) : Bool :=
  let wordBefore := before.any Text.isWordChar
  let wordAfter := after.any Text.isWordChar
  match look with
  | textStart       => before.isNone
  | textEnd         => after.isNone
  | lineStart       => before.all (· = '\n')
  | lineEnd         => after.all (· = '\n')
  | wordBoundary    => wordBefore != wordAfter
  | notWordBoundary => wordBefore == wordAfter
  | wordStart       => !wordBefore && wordAfter
  | wordEnd         => wordBefore && !wordAfter
  | wordStartHalf   => !wordBefore
  | wordEndHalf     => !wordAfter

end Look
end Pattern

/-- A regular expression. -/
inductive Pattern where
  | empty
  /-- One character of a set. -/
  | set (s : Pattern.CharSet)
  | look (l : Pattern.Look)
  | concat (parts : List Pattern)
  | alternatives (parts : List Pattern)
  /-- From `least` to `most` times, as often as can be if `greedy`. -/
  | repeated (least : Nat) (most : Option Nat) (greedy : Bool) (body : Pattern)
  /-- A group, counted from one. -/
  | group (index : Nat) (body : Pattern)

namespace Pattern

/-- A regular expression with its groups: how many there are, and which have names. -/
structure Compiled where
  body : Pattern
  groups : Nat
  names : List (String × Nat)

mutual

/-- Whether no match is empty. -/
def consumes : Pattern → Bool
  | .empty | .look _     => false
  | .set _               => true
  | .concat ps           => anyConsumes ps
  | .alternatives ps     => allConsume ps
  | .repeated n _ _ body => n ≠ 0 && body.consumes
  | .group _ body        => body.consumes

/-- Whether one of the patterns has no empty match. -/
def anyConsumes : List Pattern → Bool
  | []      => false
  | p :: ps => p.consumes || anyConsumes ps

/-- Whether none of the patterns has an empty match. -/
def allConsume : List Pattern → Bool
  | []      => true
  | p :: ps => p.consumes && allConsume ps

end

mutual

/-- About how much room the pattern takes when its repetitions are written out. -/
def cost : Pattern → Nat
  | .empty                  => 30
  | .look _                 => 30
  | .set s                  => 40 + s.cost
  | .concat ps              => costs ps
  | .alternatives ps        => 60 + costs ps
  | .repeated n most _ body => 60 + max 1 (most.getD (n + 1)) * (body.cost + 40)
  | .group _ body           => 80 + body.cost

/-- The costs of several patterns together. -/
def costs : List Pattern → Nat
  | []      => 0
  | p :: ps => p.cost + costs ps

end

/-- The room a pattern may take. -/
def maxCost : Nat := 10 * 0x100000

end Pattern
end Scrape
