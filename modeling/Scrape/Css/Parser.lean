import Scrape.Css.Selector
import Scrape.Css.Token

/-!
# Css — Parser

Reading selectors.  What stands in the brackets of a function is read by a reader that is handed in
(`Inner`), so that reading descends by one level at a time (`readList?`).
-/

namespace Scrape.Css

/-- How a list of selectors is read. -/
structure Manner where
  /-- A selector that cannot be read counts as one that nothing meets. -/
  forgiving : Bool := false
  /-- Selectors start from the anchor. -/
  relative : Bool := false
  /-- The list stands, at some depth, in a condition on what is below or beside. -/
  withinHas : Bool := false
  /-- Combinators are no part of the selectors. -/
  compoundOnly : Bool := false

/-- A reader of the selectors in brackets. -/
abbrev Inner := Manner → List Token → Option (List Selector)

/-- The tokens from the first that is not blank. -/
def skipBlanks : List Token → List Token
  | .blank :: r => skipBlanks r
  | r           => r

/-! ### Places -/

/-- The start of the places from what follows the step: a sign and a number, or nothing. -/
def readStart? (ts : List Token) : Option (Int × List Token) :=
  let unsigned (factor : Int) (r : List Token) : Option (Int × List Token) :=
    match skipBlanks r with
    | .number false (some b) :: r => some (factor * b, r)
    | _                           => none
  match skipBlanks ts with
  | .sign '+' :: r            => unsigned 1 r
  | .sign '-' :: r            => unsigned (-1) r
  | .number true (some b) :: r => some (b, r)
  | _                         => some (0, ts)

/-- The start of the places from an unsigned number, which is negated. -/
def readMinus? (ts : List Token) : Option (Int × List Token) :=
  match skipBlanks ts with
  | .number false (some b) :: r => some (-b, r)
  | _                           => none

/-- The number in `n-` and digits, negated. -/
def minusDigits? (s : List Char) : Option Int :=
  match s with
  | c :: '-' :: r =>
    if (c = 'n' || c = 'N') && r.all Text.isDigit then
      (Text.readNat? 10 r).map fun b => clampInteger (-b)
    else none
  | _ => none

/-- The step and start from a name, of which `factor` is the number before it. -/
def readNamed? (factor : Int) (name : List Char) (ts : List Token) :
    Option (Int × Int × List Token) :=
  let lower := Text.asciiLower name
  if lower = ['n'] then (readStart? ts).map fun (b, r) => (factor, b, r)
  else if lower = ['n', '-'] then (readMinus? ts).map fun (b, r) => (factor, b, r)
  else (minusDigits? name).map fun b => (factor, b, ts)

/-- The step and start of places such as `2n+1`, `odd` or `3`. -/
def readPlaces? (ts : List Token) : Option (Int × Int × List Token) :=
  match skipBlanks ts with
  | .number _ (some b) :: r       => some (0, b, r)
  | .dimension (some a) unit :: r => readNamed? a unit.toList r
  | .ident name :: r =>
    if lowerName name = "even" then some (2, 0, r)
    else if lowerName name = "odd" then some (2, 1, r)
    else match name.toList with
      | '-' :: s => readNamed? (-1) s r
      | s        => readNamed? 1 s r
  | .sign '+' :: .ident name :: r => readNamed? 1 name.toList r
  | _ => none

/-- The condition on a place, from what stands in its brackets. -/
def nth? (ofType fromEnd : Bool) (inside : List Token) : Option Condition :=
  match readPlaces? inside with
  | some (a, b, r) => if (skipBlanks r).isEmpty then some (.nth ⟨a, b, ofType, fromEnd⟩) else none
  | none           => none

/-! ### Attributes -/

/-- The name of an attribute: whether it may be of any vocabulary, and the name. -/
def readAttributeName? : List Token → Option (Bool × String × List Token)
  | .sign '*' :: .sign '|' :: .ident n :: r => some (true, n, r)
  | .sign '|' :: .ident n :: r              => some (false, n, r)
  | .ident _ :: .sign '|' :: _              => none
  | .ident n :: r                           => some (false, n, r)
  | _                                       => none

/-- The comparison that a token stands for. -/
def comparison? : Token → Option Comparison
  | .sign '='       => some .equals
  | .comparison '~' => some .includes
  | .comparison '|' => some .dash
  | .comparison '^' => some .begins
  | .comparison '$' => some .ends
  | .comparison '*' => some .contains
  | _               => none

/-- The rule on case after the value of an attribute. -/
def caseRule? (name : String) (anySpace : Bool) (ts : List Token) : Option CaseRule :=
  match skipBlanks ts with
  | [] =>
    let caseless := !anySpace && caselessAttributes.contains (lowerName name)
    some (if caseless then .byVocabulary else .exact)
  | .ident flag :: r =>
    if !(skipBlanks r).isEmpty then none
    else if lowerName flag = "i" then some .ignored
    else if lowerName flag = "s" then some .exact
    else none
  | _ => none

/-- The condition in square brackets. -/
def attribute? (inside : List Token) : Option Condition :=
  match readAttributeName? (skipBlanks inside) with
  | none => none
  | some (anySpace, name, r) =>
    match skipBlanks r with
    | []     => some (.attribute ⟨anySpace, name, none⟩)
    | t :: r =>
      match comparison? t, skipBlanks r with
      | some c, .ident v :: r =>
        (caseRule? name anySpace r).map fun k => .attribute ⟨anySpace, name, some ⟨c, v, k⟩⟩
      | some c, .quoted v :: r =>
        (caseRule? name anySpace r).map fun k => .attribute ⟨anySpace, name, some ⟨c, v, k⟩⟩
      | _, _ => none

/-! ### Compounds -/

/-- The condition of a colon and a name. -/
def named? (name : String) : Option Condition :=
  let first (ofType : Bool) : Condition := .nth ⟨0, 1, ofType, false⟩
  let last (ofType : Bool) : Condition := .nth ⟨0, 1, ofType, true⟩
  match lowerName name with
  | "root"          => some .root
  | "empty"         => some .empty
  | "scope"         => some .scope
  | "first-child"   => some (first false)
  | "last-child"    => some (last false)
  | "first-of-type" => some (first true)
  | "last-of-type"  => some (last true)
  | "only-child"    => some (.any [.one [first false, last false]])
  | "only-of-type"  => some (.any [.one [first true, last true]])
  | _               => none

/-- The condition of a colon and a function. -/
def called? (inner : Inner) (manner : Manner) (name : String) (inside : List Token) :
    Option Condition :=
  let plain : Manner := { withinHas := manner.withinHas, compoundOnly := manner.compoundOnly }
  match lowerName name with
  | "nth-child"        => nth? false false inside
  | "nth-last-child"   => nth? false true inside
  | "nth-of-type"      => nth? true false inside
  | "nth-last-of-type" => nth? true true inside
  | "is"               => (inner { plain with forgiving := true } inside).map .any
  | "where"            => (inner { plain with forgiving := true } inside).map .any
  | "not"              => (inner plain inside).map .none
  | "has" =>
    if manner.withinHas then none
    else (inner { plain with relative := true, withinHas := true } inside).map .has
  | "host" => (inner { plain with compoundOnly := true } inside).bind fun l =>
      if l.length = 1 then some .never else none
  | _ => none

/-- The condition on the type at the start of a compound, if there is one; nothing at all if it
cannot be read. -/
def readType? : List Token → Option (List Condition × List Token)
  | .sign '*' :: .sign '|' :: .ident n :: r   => some ([.type n], r)
  | .sign '*' :: .sign '|' :: .sign '*' :: r  => some ([.always], r)
  | .sign '*' :: .sign '|' :: _               => none
  | .sign '*' :: r                            => some ([.always], r)
  | .sign '|' :: .ident _ :: r                => some ([.never], r)
  | .sign '|' :: .sign '*' :: r               => some ([.never], r)
  | .sign '|' :: _                            => none
  | .ident _ :: .sign '|' :: _                => none
  | .ident n :: r                             => some ([.type n], r)
  | r                                         => some ([], r)

/-- Whether a condition other than one on the type starts here. -/
def atCondition : List Token → Bool
  | .hash _ :: _          => true
  | .sign '.' :: _        => true
  | .block .square _ :: _ => true
  | .colon :: _           => true
  | _                     => false

/-- The next condition of a compound. -/
def readCondition? (inner : Inner) (manner : Manner) :
    List Token → Option (Condition × List Token)
  | .hash n :: r                      => some (.id n, r)
  | .sign '.' :: .ident n :: r        => some (.className n, r)
  | .block .square inside :: r        => (attribute? inside).map fun c => (c, r)
  | .colon :: .ident n :: r           => (named? n).map fun c => (c, r)
  | .colon :: .function n inside :: r => (called? inner manner n inside).map fun c => (c, r)
  | _                                 => none

/-- The rest of a compound, after the conditions `acc`, which are held in reverse; `fuel` bounds the
number of tokens. -/
def readConditions? (inner : Inner) (manner : Manner) :
    Nat → List Condition → List Token → Option (List Condition × List Token)
  | 0,        acc, ts => some (acc.reverse, ts)
  | fuel + 1, acc, ts =>
    if atCondition ts then
      match readCondition? inner manner ts with
      | some (c, r) => readConditions? inner manner fuel (c :: acc) r
      | none        => none
    else some (acc.reverse, ts)

/-- A compound, which is not empty. -/
def readCompound? (inner : Inner) (manner : Manner) (ts : List Token) :
    Option (List Condition × List Token) :=
  match readType? (skipBlanks ts) with
  | none           => none
  | some (type, r) =>
    match readConditions? inner manner r.length type.reverse r with
    | some (c, r) => if c.isEmpty then none else some (c, r)
    | none        => none

/-! ### Selectors -/

/-- The combinator at the start of the tokens, and the tokens after it. -/
def readCombinator? (ts : List Token) : Option (Combinator × List Token) :=
  match skipBlanks ts with
  | []             => none
  | .sign '>' :: r => some (.child, r)
  | .sign '+' :: r => some (.next, r)
  | .sign '~' :: r => some (.later, r)
  | r              =>
    match ts with
    | .blank :: _ => some (.descendant, r)
    | _           => none

/-- The rest of a selector, of which what has been read before a combinator is given; `fuel` bounds
the number of tokens. -/
def readSelector? (inner : Inner) (manner : Manner) :
    Nat → Option (Selector × Combinator) → List Token → Option Selector
  | 0,        _,     _  => none
  | fuel + 1, left?, ts =>
    match readCompound? inner manner ts with
    | none        => none
    | some (c, r) =>
      let selector := match left? with
        | some (left, combinator) => Selector.after left combinator c
        | none                    => .one c
      match readCombinator? r with
      | some (combinator, r) =>
        if manner.compoundOnly then none
        else readSelector? inner manner fuel (some (selector, combinator)) r
      | none => if (skipBlanks r).isEmpty then some selector else none

/-- The selector of all of the tokens. -/
def selector? (inner : Inner) (manner : Manner) (ts : List Token) : Option Selector :=
  let ts := skipBlanks ts
  if manner.relative then
    let (combinator, r) := (readCombinator? ts).getD (.descendant, ts)
    readSelector? inner manner (ts.length + 1) (some (.one [.anchor], combinator)) r
  else readSelector? inner manner (ts.length + 1) none ts

mutual

/-- Whether a token, or one in its brackets, is broken. -/
def Token.isBroken : Token → Bool
  | .broken            => true
  | .block _ inside    => anyBroken inside
  | .function _ inside => anyBroken inside
  | _                  => false

/-- Whether one of the tokens is broken. -/
def anyBroken : List Token → Bool
  | []     => false
  | t :: r => t.isBroken || anyBroken r

end

/-- The tokens between commas, after the tokens `piece` of one that has begun, held in reverse. -/
def splitAtCommas (piece : List Token) : List Token → List (List Token)
  | []          => [piece.reverse]
  | .comma :: r => piece.reverse :: splitAtCommas [] r
  | t :: r      => splitAtCommas (t :: piece) r

/-- A list of selectors; `depth` bounds the nesting of brackets. -/
def readList? : Nat → Inner
  | 0,         _,      _  => none
  | depth + 1, manner, ts =>
    (splitAtCommas [] ts).mapM fun piece =>
      match selector? (readList? depth) manner piece with
      | some s => some s
      | none   =>
        if manner.forgiving && !anyBroken piece then some (.one [.never]) else none

/-- The selectors of a text, one of which is to be met; nothing if the text is none. -/
def parse? (s : List Char) : Option (List Selector) := readList? (s.length + 1) {} (tokens s)

end Scrape.Css
