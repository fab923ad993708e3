import Scrape.Rule.Split
import Scrape.Text.Category
import Scrape.XPath.Basic

/-!
# XPath — Parser

Reading location paths.  A slash separates steps where it stands neither in brackets nor between
quotes; a step is a test and predicates in square brackets.
-/

namespace Scrape.XPath

open Scrape.Text (after? isBlank trim trimEnd trimStart)

/-- Where a scan of a path stands: between which quotes, and how deep in brackets. -/
structure Scan where
  quote? : Option Char := none
  depth : Nat := 0

/-- The scan after one more character, with some opening and some closing brackets. -/
def Scan.step (opening closing : List Char) (st : Scan) (c : Char) : Scan :=
  match st.quote? with
  | some q => if c = q then { st with quote? := none } else st
  | none =>
    if c = '\'' || c = '"' then { st with quote? := some c }
    else if opening.contains c then { st with depth := st.depth + 1 }
    else if closing.contains c then { st with depth := st.depth - 1 }
    else st

/-- The text up to the next slash that separates steps, and the text from it on. -/
def splitStep (st : Scan) : List Char → List Char × List Char
  | []     => ([], [])
  | c :: s =>
    if st.quote?.isNone && st.depth = 0 && c = '/' then ([], c :: s)
    else
      let (a, b) := splitStep (st.step ['[', '('] [']', ')'] c) s
      (c :: a, b)

/-- What stands in the square bracket that has been opened, and the text after its end, after the
characters `acc`, which are held in reverse. -/
def readBracket? (st : Scan) (acc : List Char) : List Char → Option (List Char × List Char)
  | []     => none
  | c :: s =>
    let next := st.step ['['] [']'] c
    if next.depth = 0 then some (acc.reverse, s) else readBracket? next (c :: acc) s

/-! ### Predicates -/

/-- Whether the character is part of the name of an attribute. -/
def isNameChar (c : Char) : Bool := Text.isWordChar c || c = ':' || c = '.' || c = '-'

/-- The text between quotes at the start, and the text after them. -/
def readLiteral? : List Char → Option (List Char × List Char)
  | q :: s =>
    if q = '\'' || q = '"' then
      match s.span (· ≠ q) with
      | (text, _ :: r) => some (text, r)
      | (_,    [])     => none
    else none
  | [] => none

/-- The text between quotes that is all there is after an equals sign. -/
def equalTo? (s : List Char) : Option String :=
  match trimStart s with
  | '=' :: r =>
    match readLiteral? (trimStart r) with
    | some (text, []) => some (String.ofList text)
    | _               => none
  | _ => none

/-- The operand at the start of a text, and the text after it. -/
def readOperand? (s : List Char) : Option (Operand × List Char) :=
  match s with
  | '@' :: r =>
    let (name, rest) := r.span isNameChar
    if name.isEmpty then none else some (.attr (String.ofList name), rest)
  | '.' :: r => some (.value, r)
  | _        => (after? "text()".toList s).map fun r => (.ownText, r)

/-- The operand and the text of a function, from what follows its opening bracket. -/
def readArguments? (s : List Char) : Option (Operand × String) :=
  match readOperand? (trimStart s) with
  | none         => none
  | some (op, r) =>
    match trimStart r with
    | ',' :: r =>
      match readLiteral? (trimStart r) with
      | some (text, r) => if trimStart r = [')'] then some (op, String.ofList text) else none
      | none           => none
    | _ => none

/-- The predicate of what stands in a square bracket. -/
def predicate? (s : List Char) : Option Predicate :=
  let s := trim s
  if !s.isEmpty && s.all Text.isDecimalDigit then
    ((Text.readCount? s).filter (0 < ·)).map .position
  else if s = "last()".toList then some .last
  else
    match after? "contains(".toList s, after? "starts-with(".toList s with
    | some r, _      => (readArguments? r).map fun (op, t) => .contains op t
    | none,   some r => (readArguments? r).map fun (op, t) => .startsWith op t
    | none,   none   =>
      match readOperand? s with
      | some (.attr n, []) => some (.hasAttr n)
      | some (op, r)       => (equalTo? r).map (.equals op)
      | none               => none

/-- The predicates of the rest of a step; `fuel` bounds its length. -/
def predicates? : Nat → List Char → Option (List Predicate)
  | _,        []       => some []
  | fuel + 1, '[' :: s => do
    let (inside, rest) ← readBracket? { depth := 1 } [] s
    let p ← predicate? inside
    let ps ← predicates? fuel (trimStart rest)
    pure (p :: ps)
  | _, _ => none

/-! ### Paths -/

/-- The test of a step. -/
def test? (head : List Char) : Option Test :=
  let isTestChar (c : Char) : Bool := Text.isAlphanumeric c || c = '-' || c = '_' || c = ':'
  if head = ['*'] || head = "node()".toList then some .any
  else if head = ['.'] then some .self
  else if head = ['.', '.'] then some .parent
  else if head = "text()".toList then some .text
  else
    match head with
    | '@' :: name => some (.attr (String.ofList name))
    | _ =>
      if !head.isEmpty && head.all isTestChar then
        some (.name (String.ofList (Text.asciiLower head)))
      else none

/-- The step of a text. -/
def step? (axis : Axis) (s : List Char) : Option Step := do
  let (head, rest) := s.span (· ≠ '[')
  let test ← test? (if rest.isEmpty then head else trim head)
  let predicates ← predicates? s.length rest
  pure ⟨axis, test, predicates⟩

/-- The axis that the slashes at the start of a text stand for, and the text after them. -/
def readAxis? (isFirst : Bool) : List Char → Option (Axis × List Char)
  | '/' :: '/' :: r => some (.descendant, r)
  | '/' :: r        => some (.child, r)
  | r               => if isFirst then some (.child, r) else none

/-- The steps of the rest of a path, after the steps `acc`, which are held in reverse; `fuel` bounds
the number of steps. -/
def steps? : Nat → List Step → List Char → Option (List Step)
  | _,        acc, [] => some acc.reverse
  | 0,        _,   _  => none
  | fuel + 1, acc, s  => do
    let (axis, rest) ← readAxis? acc.isEmpty s
    let (text, rest) := splitStep {} rest
    let text := trim text
    if text.isEmpty then none
    else
      let step ← step? axis text
      steps? fuel (step :: acc) rest

/-- The path of a text. -/
def path? (s : List Char) : Option Path :=
  let s := trim s
  if s.isEmpty then none
  else (steps? s.length [] s).map fun steps => ⟨s.head? = some '/', steps⟩

/-- A text that is no path. -/
structure ParseError where
  path : List Char

/-- The wording of the error. -/
def ParseError.message (e : ParseError) : String :=
  "invalid selector \x60" ++ String.ofList e.path ++ "\x60"

/-- The query of a text, whose paths stand between bars; the first text that is no path is the
error. -/
def Query.parse (s : List Char) : Except ParseError Query := do
  let paths ← (Rule.split [['|']] s).mapM fun p =>
    match path? p with
    | some path => Except.ok path
    | none      => .error ⟨p⟩
  pure ⟨paths⟩

end Scrape.XPath
