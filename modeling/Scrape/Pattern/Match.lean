import Scrape.Keyed
import Scrape.Pattern.Program
import Scrape.Pattern.Parser

/-!
# Pattern — Match

Searching a text for the matches of a pattern, one after the other without overlap, and replacing
them by a template.  A template refers to groups by number or name, between braces or not; `$$`
stands for a dollar sign.
-/

namespace Scrape

namespace Pattern

/-- A match in a text: where it begins and ends, and the text of each group, the whole match being
group zero; a group that took no part has none. -/
structure Match where
  start : Nat
  stop : Nat
  groups : List (Option (List Char))
  deriving DecidableEq

/-- The match of some slots. -/
def Match.ofSlots (text : Array Char) (slots : Slots) : Match :=
  let slot (i : Nat) : Option Nat := (slots[i]?).join
  let group (i : Nat) : Option (List Char) :=
    match slot (2 * i), slot (2 * i + 1) with
    | some a, some b => some (text.extract a b).toList
    | _,      _      => none
  ⟨(slot 0).getD 0, (slot 1).getD 0, (List.range (slots.size / 2)).map group⟩

/-- The first match from a place on; `rest` is the text from there. -/
def Program.matchFrom? (p : Program) (text : Array Char) (place : Nat) (rest : List Char) :
    Option Match :=
  let before := if place = 0 then none else text[place - 1]?
  (p.search place before rest).map (Match.ofSlots text)

/-- The matches from a place on, after the matches `found`, latest first.  An empty match does not
count where the match before it ends.  `fuel` bounds their number. -/
def Program.matchesFrom (p : Program) (text : Array Char) :
    Nat → Nat → Option Nat → List Char → List Match → List Match
  | 0,        _,     _,     _,    found => found.reverse
  | fuel + 1, place, last?, rest, found =>
    match p.matchFrom? text place rest with
    | none => found.reverse
    | some m =>
      if m.start = m.stop && last? = some m.stop then
        match rest with
        | []        => found.reverse
        | _ :: rest =>
          match p.matchFrom? text (place + 1) rest with
          | none   => found.reverse
          | some m =>
            p.matchesFrom text fuel m.stop (some m.stop) (rest.drop (m.stop - (place + 1)))
              (m :: found)
      else
        p.matchesFrom text fuel m.stop (some m.stop) (rest.drop (m.stop - place)) (m :: found)

namespace Compiled

/-- The first match in a text. -/
def match? (p : Compiled) (text : List Char) : Option Match :=
  p.program.matchFrom? text.toArray 0 text

/-- All matches in a text that do not overlap, from the left. -/
def allMatches (p : Compiled) (text : List Char) : List Match :=
  p.program.matchesFrom text.toArray (text.length + 2) 0 none text []

end Compiled

/-! ### Templates -/

/-- A piece of a template. -/
inductive Piece where
  | text (c : Char)
  | group (name : List Char)

/-- Whether a name without braces can go on with the character. -/
def isReferenceChar (c : Char) : Bool := Text.isAsciiLetter c || Text.isDigit c || c = '_'

/-- The pieces of a template; `fuel` bounds its length. -/
def piecesFrom : Nat → List Char → List Piece
  | 0,        _  => []
  | _ + 1,    [] => []
  | fuel + 1, c :: s =>
    if c ≠ '$' then .text c :: piecesFrom fuel s
    else match s with
    | '$' :: r    => .text '$' :: piecesFrom fuel r
    | '\x7b' :: r =>
      match r.span (· ≠ '\x7d') with
      | (name, _ :: r) => .group name :: piecesFrom fuel r
      | (_,    [])     => .text '$' :: piecesFrom fuel s
    | s =>
      match s.span isReferenceChar with
      | ([],   _) => .text '$' :: piecesFrom fuel s
      | (name, r) => .group name :: piecesFrom fuel r

/-- The pieces of a template. -/
def pieces (template : List Char) : List Piece := piecesFrom (template.length + 1) template

/-- The text of a group that is named or counted, empty if there is none. -/
def Match.reference (m : Match) (names : List (String × Nat)) (name : List Char) : List Char :=
  let index? := (Text.readCount? name).or (Keyed.get? (String.ofList name) names)
  (index?.bind fun i => (m.groups[i]?).join).getD []

/-- The text that a template gives for a match. -/
def Match.expand (m : Match) (names : List (String × Nat)) (template : List Piece) : List Char :=
  template.flatMap fun
    | .text c     => [c]
    | .group name => m.reference names name

/-- The text with some matches, which are in order, replaced by the texts beside them. -/
def replaceInTurn (ms : List (Match × List Char)) (text : List Char) : List Char :=
  let step (acc : List (List Char) × Nat × List Char) (m : Match × List Char) :=
    let (out, place, rest) := acc
    (m.2 :: rest.take (m.1.start - place) :: out, m.1.stop, rest.drop (m.1.stop - place))
  let (out, _, rest) := ms.foldl step ([], 0, text)
  (rest :: out).reverse.flatten

/-- The text with some matches, which are in order, replaced by what `f` gives for them. -/
def replaceMatches (f : Match → List Char) (text : List Char) (ms : List Match) : List Char :=
  replaceInTurn (ms.map fun m => (m, f m)) text

namespace Compiled

/-- The text with its matches, or the first of them, replaced by a template. -/
def replace (p : Compiled) (all : Bool) (template text : List Char) : List Char :=
  let found := if all then p.allMatches text else (p.match? text).toList
  let template := pieces template
  replaceMatches (fun m => m.expand p.names template) text found

/-- The pieces of a text between the matches. -/
def split (p : Compiled) (text : List Char) : List (List Char) :=
  let step (acc : List (List Char) × Nat × List Char) (m : Match) :=
    let (out, place, rest) := acc
    (rest.take (m.start - place) :: out, m.stop, rest.drop (m.stop - place))
  let (out, _, rest) := (p.allMatches text).foldl step ([], 0, text)
  (rest :: out).reverse

end Compiled
end Pattern
end Scrape
