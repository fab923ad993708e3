import Scrape.Keyed
import Scrape.Pattern.Basic
import Scrape.Text.Blank

/-!
# Pattern — Parser

Reading regular expressions.  There is no looking around and no reference back to a group; what is
not understood is an error.  Flags may be set within a pattern: `i` for any case, `m` for the ends
of lines, `s` for a point that takes a line end too, `U` for repetitions that are reluctant unless
marked, and `x` for blanks and comments that do not count.
-/

namespace Scrape.Pattern

open Scrape.Text (after? isDigit isBlank)

/-- The flags in force. -/
structure Flags where
  anyCase : Bool := false
  lines : Bool := false
  pointTakesAll : Bool := false
  reluctant : Bool := false
  spaced : Bool := false
  unicode : Bool := true

/-- Where the reading of a pattern stands: the flags, the number of groups opened so far, their
names, and the rest of the text. -/
structure Reading where
  flags : Flags
  groups : Nat
  names : List (String × Nat)
  rest : List Char

namespace Reading

/-- The reading with another rest. -/
def withRest (st : Reading) (rest : List Char) : Reading := { st with rest := rest }

end Reading

/-- The text after blanks and comments; `fuel` bounds its length. -/
def skipSpaceFrom : Nat → List Char → List Char
  | 0,        s      => s
  | _ + 1,    []     => []
  | fuel + 1, c :: s =>
    if isBlank c then skipSpaceFrom fuel s
    else if c = '#' then skipSpaceFrom fuel (s.dropWhile (· ≠ '\n'))
    else c :: s

/-- The text after blanks and comments, where these do not count. -/
def skipSpace (flags : Flags) (s : List Char) : List Char :=
  if flags.spaced then skipSpaceFrom (s.length + 1) s else s

/-! ### Escapes -/

/-- What an escape stands for. -/
inductive Escape where
  | literal (c : Char)
  | set (s : CharSet)
  | look (l : Look)

/-- The characters that have a meaning of their own. -/
def metaChars : List Char := "\\.+*?()|[]\x7b\x7d^$#&-~".toList

/-- Whether a backslash before the character makes it stand for itself. -/
def isEscapable (c : Char) : Bool :=
  metaChars.contains c
    || (Text.isAscii c && !Text.isAsciiLetter c && !isDigit c && c ≠ '<' && c ≠ '>')

/-- The character of hexadecimal digits, if there is one. -/
def hexChar? (digits : List Char) : Option Char :=
  (Text.readNat? 16 digits).bind fun n =>
    if n ≤ 0x10FFFF && !(0xD800 ≤ n && n ≤ 0xDFFF) then some (Char.ofNat n) else none

/-- Reads a hexadecimal escape of a number of digits, or of any number between braces. -/
def readHex? (count : Nat) (s : List Char) : Option (Char × List Char) :=
  match s with
  | '\x7b' :: r =>
    match r.span (· ≠ '\x7d') with
    | (digits, _ :: r) => (hexChar? digits).map fun c => (c, r)
    | (_,      [])     => none
  | r =>
    if r.length < count then none
    else (hexChar? (r.take count)).map fun c => (c, r.drop count)

/-- The property written between braces: a name, or a name and a value. -/
def propertyOf? (content : List Char) : Option CharSet :=
  let (negated, content) := match content with
    | '^' :: r => (true, r)
    | r        => (false, r)
  let set? : Option CharSet :=
    match Text.cut? ['!', '='] content with
    | some (name, value) =>
      (Property.ofNameValue? name value).map fun p => .compl (.property p)
    | none =>
      match content.span fun c => c ≠ ':' && c ≠ '=' with
      | (name, _ :: value) => (Property.ofNameValue? name value).map .property
      | (name, [])         => (Property.ofName? name).map .property
  set?.map (CharSet.negatedIf negated)

/-- Reads a named property after its letter. -/
def readProperty? (s : List Char) : Option (CharSet × List Char) :=
  match s with
  | '\x7b' :: r =>
    match r.span (· ≠ '\x7d') with
    | (content, _ :: r) => (propertyOf? content).map fun p => (p, r)
    | (_,       [])     => none
  | c :: r => (Property.ofCategory? [c]).map fun p => (.property p, r)
  | []     => none

/-- The set of a letter that names a class: digits, blanks, word characters. -/
def classLetter (flags : Flags) (c : Char) : CharSet :=
  let named (full : Property) (plain : CharSet) : CharSet :=
    if flags.unicode then .property full else plain
  let digits := CharSet.range '0' '9'
  let set := match c.toLower with
    | 'd' => named .decimalDigit digits
    | 's' => named .space (.ofList [' ', '\t', '\n', '\r', '\x0b', '\x0c'])
    | _   => named .word
      (.union digits (.union (.range 'a' 'z') (.union (.range 'A' 'Z') (.single '_'))))
  CharSet.negatedIf c.isUpper set

/-- Reads what follows the mark of a word boundary: the kind of the boundary between braces, or
nothing. -/
def readBoundary? (s : List Char) : Option (Look × List Char) :=
  match s with
  | '\x7b' :: r =>
    let isNameChar (c : Char) : Bool := Text.isAsciiLetter c || c = '-'
    match r with
    | []     => none
    | c :: _ =>
      if !isNameChar c then some (.wordBoundary, s)
      else match r.span isNameChar with
      | (name, '\x7d' :: r) =>
        if name = "start".toList then some (.wordStart, r)
        else if name = "end".toList then some (.wordEnd, r)
        else if name = "start-half".toList then some (.wordStartHalf, r)
        else if name = "end-half".toList then some (.wordEndHalf, r)
        else none
      | _ => none
  | r => some (.wordBoundary, r)

/-- Reads an escape after its backslash. -/
def readEscape? (flags : Flags) (s : List Char) : Option (Escape × List Char) :=
  match s with
  | []     => none
  | c :: r =>
    let literal (c : Char) : Option (Escape × List Char) := some (.literal c, r)
    match c with
    | 'x' => (readHex? 2 r).map fun (c, r) => (.literal c, r)
    | 'u' => (readHex? 4 r).map fun (c, r) => (.literal c, r)
    | 'U' => (readHex? 8 r).map fun (c, r) => (.literal c, r)
    | 'p' => (readProperty? r).map fun (p, r) => (.set (.anyCaseIf flags.anyCase p), r)
    | 'P' => (readProperty? r).map fun (p, r) => (.set (.compl (.anyCaseIf flags.anyCase p)), r)
    | 'd' | 's' | 'w' | 'D' | 'S' | 'W' => some (.set (classLetter flags c), r)
    | 'a' => literal '\x07'
    | 'f' => literal '\x0c'
    | 't' => literal '\t'
    | 'n' => literal '\n'
    | 'r' => literal '\r'
    | 'v' => literal '\x0b'
    | 'A' => some (.look .textStart, r)
    | 'z' => some (.look .textEnd, r)
    | 'b' => (readBoundary? r).map fun (l, r) => (.look l, r)
    | 'B' => some (.look .notWordBoundary, r)
    | '<' => some (.look .wordStart, r)
    | '>' => some (.look .wordEnd, r)
    | c   => if isEscapable c then literal c else none

/-! ### Bracketed sets -/

/-- The sets named between `[:` and `:]`. -/
def asciiClass? (name : List Char) : Option CharSet :=
  let digits := CharSet.range '0' '9'
  let lower := CharSet.range 'a' 'z'
  let upper := CharSet.range 'A' 'Z'
  match String.ofList name with
  | "alnum"  => some (.union digits (.union lower upper))
  | "alpha"  => some (.union lower upper)
  | "ascii"  => some (.range '\x00' '\x7f')
  | "blank"  => some (.ofList ['\t', ' '])
  | "cntrl"  => some (.union (.range '\x00' '\x1f') (.single '\x7f'))
  | "digit"  => some digits
  | "graph"  => some (.range '!' '~')
  | "lower"  => some lower
  | "print"  => some (.range ' ' '~')
  | "punct"  =>
    some (.union (.range '!' '/') (.union (.range ':' '@') (.union (.range '[' '\x60')
      (.range '\x7b' '~'))))
  | "space"  => some (.ofList ['\t', '\n', '\x0b', '\x0c', '\r', ' '])
  | "upper"  => some upper
  | "word"   => some (.union digits (.union lower (.union upper (.single '_'))))
  | "xdigit" => some (.union digits (.union (.range 'a' 'f') (.range 'A' 'F')))
  | _        => none

/-- Reads a named set within brackets, from its bracket on. -/
def readAsciiClass? (s : List Char) : Option (CharSet × List Char) :=
  match s with
  | '[' :: ':' :: r =>
    let (negated, r) := match r with
      | '^' :: r => (true, r)
      | r        => (false, r)
    match r.span (· ≠ ':') with
    | (name, ':' :: ']' :: r) => (asciiClass? name).map fun s => (.negatedIf negated s, r)
    | _                       => none
  | _ => none

/-- An operator on sets. -/
inductive SetOp where
  | inter
  | diff
  | symmDiff

/-- The set of an operator, its operands taken without regard to case if so asked. -/
def SetOp.apply (flags : Flags) (op : SetOp) (s t : CharSet) : CharSet :=
  let s := CharSet.anyCaseIf flags.anyCase s
  let t := CharSet.anyCaseIf flags.anyCase t
  match op with
  | .inter    => .inter s t
  | .diff     => .diff s t
  | .symmDiff => .symmDiff s t

/-- The set gathered so far, with the operator that waits for it. -/
def closeOp (flags : Flags) (pending : Option (SetOp × CharSet)) (s : CharSet) : CharSet :=
  match pending with
  | some (op, left) => op.apply flags left s
  | none            => s

/-- Reads one item of a set: a character, or an escape. -/
def readSetItem? (flags : Flags) (s : List Char) : Option (Escape × List Char) :=
  match s with
  | '\\' :: r => readEscape? flags r
  | c :: r    => some (.literal c, r)
  | []        => none

/-- Reads a range, or one item. -/
def readSetRange? (flags : Flags) (s : List Char) : Option (CharSet × List Char) :=
  match readSetItem? flags s with
  | none => none
  | some (first, r) =>
    let r := skipSpace flags r
    let alone : Option (CharSet × List Char) :=
      match first with
      | .literal c => some (.single c, r)
      | .set s     => some (s, r)
      | .look _    => none
    match r with
    | [] => none
    | '-' :: r₁ =>
      let r₁ := skipSpace flags r₁
      match r₁ with
      | [] => none
      | ']' :: _ => alone
      | '-' :: _ => alone
      | _ =>
        match first, readSetItem? flags r₁ with
        | .literal low, some (.literal high, r) =>
          if low ≤ high then some (.range low high, r) else none
        | _, _ => none
    | _ => alone

/-- Reads the hyphens that may stand first in a set. -/
def readHyphens (flags : Flags) : Nat → CharSet → List Char → CharSet × List Char
  | 0,        s, r => (s, r)
  | fuel + 1, s, r =>
    match r with
    | '-' :: r => readHyphens flags fuel (.union s (.single '-')) (skipSpace flags r)
    | r        => (s, r)

/-- Reads what may stand only at the start of a set after its bracket: the mark of a complement,
hyphens, and a closing bracket that stands for itself. -/
def readSetStart (flags : Flags) (s : List Char) : Bool × CharSet × List Char :=
  let s := skipSpace flags s
  let (negated, s) := match s with
    | '^' :: r => (true, skipSpace flags r)
    | r        => (false, r)
  let (start, r) := readHyphens flags (s.length + 1) .empty s
  match start, r with
  | .empty, ']' :: r => (negated, .single ']', skipSpace flags r)
  | start,  r        => (negated, start, r)

/-- Reads the rest of a bracketed set: `acc` has been gathered so far.  `fuel` bounds the length
of the text. -/
def readSetItems? (flags : Flags) (negated : Bool) :
    Nat → Option (SetOp × CharSet) → CharSet → List Char → Option (CharSet × List Char)
  | 0,        _,       _,   _ => none
  | fuel + 1, pending, acc, s =>
    let operator (op : SetOp) (r : List Char) : Option (CharSet × List Char) :=
      readSetItems? flags negated fuel (some (op, closeOp flags pending acc)) .empty r
    match skipSpace flags s with
    | [] => none
    | ']' :: r =>
      some (.negatedIf negated (.anyCaseIf flags.anyCase (closeOp flags pending acc)), r)
    | '&' :: '&' :: r => operator .inter r
    | '-' :: '-' :: r => operator .diff r
    | '~' :: '~' :: r => operator .symmDiff r
    | '[' :: r =>
      match readAsciiClass? ('[' :: r) with
      | some (t, r) => readSetItems? flags negated fuel pending (.union acc t) r
      | none =>
        let (innerNegated, start, r) := readSetStart flags r
        match readSetItems? flags innerNegated fuel none start r with
        | some (t, r) => readSetItems? flags negated fuel pending (.union acc t) r
        | none        => none
    | r =>
      match readSetRange? flags r with
      | some (t, r) => readSetItems? flags negated fuel pending (.union acc t) r
      | none        => none

/-- Reads a bracketed set after its bracket. -/
def readSet? (flags : Flags) (s : List Char) : Option (CharSet × List Char) :=
  let (negated, start, r) := readSetStart flags s
  readSetItems? flags negated (2 * s.length + 2) none start r

/-! ### Flags and groups -/

/-- The flags after one is set or taken back. -/
def setFlag? (flags : Flags) (c : Char) (value : Bool) : Option Flags :=
  match c with
  | 'i' => some { flags with anyCase := value }
  | 'm' => some { flags with lines := value }
  | 's' => some { flags with pointTakesAll := value }
  | 'U' => some { flags with reluctant := value }
  | 'x' => some { flags with spaced := value }
  | 'u' => some { flags with unicode := value }
  | 'R' => some flags
  | _   => none

/-- Reads flags up to the colon or parenthesis that ends them: the flags in force, whether one was
named, and the rest from that character on.  No flag is named twice, and one follows a minus. -/
def readFlags? (flags : Flags) (seen : List Char) (minus : Bool) :
    List Char → Option (Flags × Bool × List Char)
  | []     => none
  | c :: s =>
    if c = ':' || c = ')' then
      if seen.head? = some '-' then none else some (flags, !seen.isEmpty, c :: s)
    else if c = '-' then
      if minus then none else readFlags? flags ('-' :: seen) true s
    else if seen.contains c then none
    else match setFlag? flags c (!minus) with
    | some flags => readFlags? flags (c :: seen) minus s
    | none       => none

/-- Reads the name of a group up to the bracket that ends it. -/
def readGroupName? (s : List Char) : Option (String × List Char) :=
  match s.span (· ≠ '>') with
  | (c :: name, _ :: r) =>
    if (c = '_' || Text.isAlphabetic c)
        && name.all fun d => d = '_' || d = '.' || d = '[' || d = ']' || Text.isAlphanumeric d then
      some (String.ofList (c :: name), r)
    else none
  | _ => none

/-- What stands after an opening parenthesis. -/
inductive GroupStart where
  /-- A group that is counted, and may have a name. -/
  | captured
  /-- A group that is not counted. -/
  | plain
  /-- Flags for the rest of the group around. -/
  | flags

/-- Reads the start of a group after its parenthesis. -/
def readGroupStart? (st : Reading) : Option (GroupStart × Reading) :=
  let named (r : List Char) : Option (GroupStart × Reading) :=
    (readGroupName? r).bind fun (name, r) =>
      if (Keyed.get? name st.names).isSome then none
      else
        let groups := st.groups + 1
        some (.captured, { st with groups, names := st.names ++ [(name, groups)], rest := r })
  match st.rest with
  | '?' :: '=' :: _        => none
  | '?' :: '!' :: _        => none
  | '?' :: '<' :: '=' :: _ => none
  | '?' :: '<' :: '!' :: _ => none
  | '?' :: 'P' :: '<' :: r => named r
  | '?' :: '<' :: r        => named r
  | '?' :: r =>
    match readFlags? st.flags [] false r with
    | some (flags, some?, ')' :: r) =>
      if some? then some (.flags, { st with flags := flags, rest := r }) else none
    | some (flags, _, _ :: r) => some (.plain, { st with flags := flags, rest := r })
    | _ => none
  | _ => some (.captured, { st with groups := st.groups + 1 })

/-! ### Repetitions -/

/-- Reads a count, with blanks around it. -/
def readCount? (s : List Char) : Option (Nat × List Char) :=
  let (digits, r) := (s.dropWhile isBlank).span isDigit
  (Text.readNat? 10 digits).bind fun n =>
    if n < 0x100000000 then some (n, r.dropWhile isBlank) else none

/-- Reads the bounds of a repetition after its brace. -/
def readBounds? (flags : Flags) (s : List Char) : Option (Nat × Option Nat × List Char) :=
  match readCount? s with
  | none => none
  | some (least, r) =>
    match r with
    | '\x7d' :: r => some (least, some least, r)
    | ',' :: r    =>
      match skipSpace flags r with
      | '\x7d' :: r => some (least, none, r)
      | r           =>
        match readCount? r with
        | some (most, '\x7d' :: r) => if least ≤ most then some (least, some most, r) else none
        | _                        => none
    | _ => none

/-- A repetition of the last item, with the question mark that may follow it. -/
def repeatLast? (flags : Flags) (least : Nat) (most : Option Nat)
    (items : List (Option Pattern)) (r : List Char) : Option (List (Option Pattern) × List Char) :=
  match items with
  | some p :: items =>
    let (marked, r) := match r with
      | '?' :: r => (true, r)
      | r        => (false, r)
    some (some (.repeated least most (marked == flags.reluctant) p) :: items, r)
  | _ => none

/-! ### Patterns -/

/-- The pattern of a character that stands for itself. -/
def literal (flags : Flags) (c : Char) : Pattern :=
  if flags.anyCase && 1 < (Text.caseVariants c).length then .set (.anyCase (.single c))
  else .set (.single c)

/-- The pattern of the items of one alternative, which are in reverse; a place where flags are set
is no item. -/
def sequence (items : List (Option Pattern)) : Pattern :=
  match items.reverse.filterMap id with
  | []  => .empty
  | [p] => p
  | ps  => .concat ps

/-- The pattern of alternatives, which are in reverse. -/
def oneOf (branches : List Pattern) : Pattern :=
  match branches with
  | [p] => p
  | ps  => .alternatives ps.reverse

/-- Reads alternatives up to the end of the text or of the group.  `branches` are the alternatives
before, and `items` the items of this one, both in reverse; an item of none is a place where flags
are set.  `fuel` bounds the length of the text. -/
def readAlternatives? :
    Nat → List Pattern → List (Option Pattern) → Reading → Option (Pattern × Reading)
  | 0,        _,        _,     _  => none
  | fuel + 1, branches, items, st =>
    let flags := st.flags
    let item (p : Pattern) (r : List Char) : Option (Pattern × Reading) :=
      readAlternatives? fuel branches (some p :: items) (st.withRest r)
    let repeatItem (least : Nat) (most : Option Nat) (r : List Char) : Option (Pattern × Reading) :=
      match repeatLast? flags least most items r with
      | some (items, r) => readAlternatives? fuel branches items (st.withRest r)
      | none            => none
    match skipSpace flags st.rest with
    | []       => some (oneOf (sequence items :: branches), st.withRest [])
    | ')' :: r => some (oneOf (sequence items :: branches), st.withRest (')' :: r))
    | '|' :: r => readAlternatives? fuel (sequence items :: branches) [] (st.withRest r)
    | '(' :: r =>
      match readGroupStart? (st.withRest r) with
      | none             => none
      | some (.flags, st) => readAlternatives? fuel branches (none :: items) st
      | some (start, inner) =>
        match readAlternatives? fuel [] [] inner with
        | some (body, after) =>
          match after.rest with
          | ')' :: r =>
            let p := match start with
              | .captured => .group inner.groups body
              | _         => body
            readAlternatives? fuel branches (some p :: items)
              { after with flags := flags, rest := r }
          | _ => none
        | none => none
    | '*' :: r    => repeatItem 0 none r
    | '+' :: r    => repeatItem 1 none r
    | '?' :: r    => repeatItem 0 (some 1) r
    | '\x7b' :: r =>
      match readBounds? flags r with
      | some (least, most, r) => repeatItem least most r
      | none                  => none
    | '[' :: r =>
      match readSet? flags r with
      | some (s, r) => item (.set s) r
      | none        => none
    | '.' :: r =>
      if !flags.unicode then none
      else item (.set (if flags.pointTakesAll then .property .any else .notNewline)) r
    | '^' :: r => item (.look (if flags.lines then .lineStart else .textStart)) r
    | '$' :: r => item (.look (if flags.lines then .lineEnd else .textEnd)) r
    | '\\' :: r =>
      match readEscape? flags r with
      | some (.literal c, r) => item (literal flags c) r
      | some (.set s, r)     => item (.set s) r
      | some (.look l, r)    => item (.look l) r
      | none                 => none
    | c :: r => item (literal flags c) r

/-- The pattern of a text; nothing if the text is no pattern, or one that takes too much room. -/
def parse? (s : List Char) : Option Compiled :=
  match readAlternatives? (2 * s.length + 2) [] [] ⟨{}, 0, [], s⟩ with
  | some (p, st) =>
    if st.rest.isEmpty && p.cost ≤ maxCost then some ⟨p, st.groups, st.names⟩ else none
  | none => none

end Scrape.Pattern
