import Scrape.Text.Category
import Scrape.Text.Find

/-!
# Css — Token

The tokens of a selector.  Brackets and functions hold the tokens between their brackets, so that a
selector is a list of trees.  A bracket that is not closed is closed by the end of the text, and
comments are left out.
-/

namespace Scrape.Css

open Scrape.Text (isAscii isAsciiLetter isDigit digitValue?)

/-- A kind of brackets. -/
inductive Bracket where
  | round
  | square
  | curly
  deriving DecidableEq

/-- A token. -/
inductive Token where
  /-- White space. -/
  | blank
  | ident (name : String)
  | function (name : String) (inside : List Token)
  /-- A number sign and a name that could stand alone. -/
  | hash (name : String)
  | quoted (value : String)
  /-- A number, with its value if it is an integer. -/
  | number (signed : Bool) (value? : Option Int)
  /-- A number with a unit. -/
  | dimension (value? : Option Int) (unit : String)
  /-- One of the characters `~ | ^ $ *` and an equals sign. -/
  | comparison (c : Char)
  | colon
  | comma
  /-- A character that is no part of another token. -/
  | sign (c : Char)
  | block (bracket : Bracket) (inside : List Token)
  /-- A string that ends with its line, or a closing bracket that closes nothing. -/
  | broken
  /-- A token that no selector has. -/
  | other

/-! ### Characters -/

/-- Whether the character ends a line. -/
def isLineEnd (c : Char) : Bool := c = '\n' || c = '\r' || c = '\x0c'

/-- Whether the character is white space. -/
def isSpace (c : Char) : Bool := c = ' ' || c = '\t' || isLineEnd c

/-- Whether a name can start with the character. -/
def startsName (c : Char) : Bool := isAsciiLetter c || c = '_' || c = '\x00' || !isAscii c

/-- Whether a name can go on with the character. -/
def continuesName (c : Char) : Bool := startsName c || isDigit c || c = '-'

/-- The character that stands for one that cannot be. -/
def replacement : Char := Char.ofNat 0xFFFD

/-- Whether a backslash before the text escapes something. -/
def escapes : List Char → Bool
  | c :: _ => !isLineEnd c
  | []     => true

/-- Whether a name can start here. -/
def atName : List Char → Bool
  | '-' :: c :: _ => startsName c || c = '-' || c = '\\'
  | '\\' :: s     => escapes s
  | c :: _        => startsName c
  | []            => false

/-- Whether a number can start here, apart from its sign. -/
def atNumber : List Char → Bool
  | '.' :: c :: _ => isDigit c
  | c :: _        => isDigit c
  | []            => false

/-! ### Reading -/

/-- The text after a line end. -/
def afterLineEnd : List Char → List Char
  | '\r' :: '\n' :: r => r
  | _ :: r            => r
  | []                => []

/-- The character with a number, or the one that stands for it. -/
def charOf (n : Nat) : Char :=
  if n ≠ 0 && n.isValidChar then Char.ofNat n else replacement

/-- The character that the text after a backslash stands for, and the text after it. -/
def readEscape (s : List Char) : Char × List Char :=
  let digits := (s.take 6).takeWhile fun c => (digitValue? 16 c).isSome
  match digits with
  | [] =>
    match s with
    | []     => (replacement, [])
    | c :: r => (if c = '\x00' then replacement else c, r)
  | _ =>
    let value := digits.foldl (fun n c => n * 16 + (digitValue? 16 c).getD 0) 0
    let r := s.drop digits.length
    match r with
    | c :: _ => (charOf value, if isSpace c then afterLineEnd r else r)
    | []     => (charOf value, [])

/-- The rest of a name, after the characters `acc`, which are held in reverse; `fuel` bounds its
length. -/
def readName : Nat → List Char → List Char → String × List Char
  | 0,        acc, s  => (String.ofList acc.reverse, s)
  | _ + 1,    acc, [] => (String.ofList acc.reverse, [])
  | fuel + 1, acc, c :: s =>
    if c = '\\' && escapes s then
      let (d, r) := readEscape s
      readName fuel (d :: acc) r
    else if continuesName c then readName fuel ((if c = '\x00' then replacement else c) :: acc) s
    else (String.ofList acc.reverse, c :: s)

/-- The name at the start of a text, and the text after it. -/
def name (s : List Char) : String × List Char := readName s.length [] s

/-- The rest of a string up to its quote; nothing if its line ends before.  `fuel` bounds its
length. -/
def readQuoted (quote : Char) : Nat → List Char → List Char → Option String × List Char
  | 0,        acc, s  => (some (String.ofList acc.reverse), s)
  | _ + 1,    acc, [] => (some (String.ofList acc.reverse), [])
  | fuel + 1, acc, c :: s =>
    if c = quote then (some (String.ofList acc.reverse), s)
    else if isLineEnd c then (none, c :: s)
    else if c = '\\' then
      match s with
      | []     => (some (String.ofList acc.reverse), [])
      | d :: _ =>
        if isLineEnd d then readQuoted quote fuel acc (afterLineEnd s)
        else
          let (d, r) := readEscape s
          readQuoted quote fuel (d :: acc) r
    else readQuoted quote fuel ((if c = '\x00' then replacement else c) :: acc) s

/-- The least and the greatest value of an integer. -/
def clampInteger (i : Int) : Int := max (-0x80000000) (min 0x7FFFFFFF i)

/-- The number at the start of a text: whether it has a sign, its value if it is an integer, and
the text after it. -/
def readNumber (s : List Char) : Bool × Option Int × List Char :=
  let (signed, negative, s) := match s with
    | '+' :: r => (true, false, r)
    | '-' :: r => (true, true, r)
    | r        => (false, false, r)
  let digits := s.takeWhile isDigit
  let magnitude : Int := digits.foldl (fun n c => n * 10 + (digitValue? 10 c).getD 0) 0
  let value := clampInteger (if negative then -magnitude else magnitude)
  let s := s.dropWhile isDigit
  let (whole, s) := match s with
    | '.' :: c :: r => if isDigit c then (false, r.dropWhile isDigit) else (true, s)
    | _             => (true, s)
  let exponent? : Option (List Char) := match s with
    | e :: r =>
      if e = 'e' || e = 'E' then
        match r with
        | c :: r' =>
          if isDigit c then some (r.dropWhile isDigit)
          else if (c = '+' || c = '-') && (r'.head?.any isDigit) then some (r'.dropWhile isDigit)
          else none
        | [] => none
      else none
    | [] => none
  (signed, if whole && exponent?.isNone then some value else none, exponent?.getD s)

/-- The token that starts with a number. -/
def numberToken (s : List Char) : Token × List Char :=
  let (signed, value?, r) := readNumber s
  match r with
  | '%' :: r => (.other, r)
  | _ =>
    if atName r then
      let (unit, r) := name r
      (.dimension value? unit, r)
    else (.number signed value?, r)

/-- The text after a comment, whose start has been read. -/
def afterComment : List Char → List Char
  | '*' :: '/' :: r => r
  | _ :: r          => afterComment r
  | []              => []

/-- The bracket that a character opens, and the character that closes it. -/
def opened? (c : Char) : Option (Bracket × Char) :=
  if c = '(' then some (.round, ')')
  else if c = '[' then some (.square, ']')
  else if c = '\x7b' then some (.curly, '\x7d')
  else none

/-- The token that starts with a character which opens no bracket and no name, and is no white
space. -/
def plainToken (c : Char) (s : List Char) : Token × List Char :=
  if c = '"' || c = '\'' then
    match readQuoted c (s.length + 1) [] s with
    | (some value, r) => (.quoted value, r)
    | (none,       r) => (.broken, r)
  else if c = '#' then
    if atName s then
      let (n, r) := name s
      (.hash n, r)
    else if s.head?.any fun d => isDigit d || d = '-' then (.other, (name s).2)
    else (.sign '#', s)
  else if ['~', '|', '^', '$', '*'].contains c && s.head? = some '=' then (.comparison c, s.drop 1)
  else if c = ':' then (.colon, s)
  else if c = ',' then (.comma, s)
  else if c = ';' then (.other, s)
  else if c = ')' || c = ']' || c = '\x7d' then (.broken, s)
  else if c = '@' && atName s then (.other, (name s).2)
  else (.sign c, s)

/-- The tokens up to a closing bracket, after the tokens `acc`, which are held in reverse, and the
text after that bracket.  `fuel` bounds the number of characters. -/
def readTokens : Nat → Option Char → List Token → List Char → List Token × List Char
  | 0,        _,      acc, s  => (acc.reverse, s)
  | _ + 1,    _,      acc, [] => (acc.reverse, [])
  | fuel + 1, close?, acc, c :: s =>
    if close? = some c then (acc.reverse, s)
    else if isSpace c then readTokens fuel close? (.blank :: acc) (s.dropWhile isSpace)
    else if c = '/' && s.head? = some '*' then
      readTokens fuel close? acc (afterComment (s.drop 1))
    else if atNumber (c :: s) || ((c = '+' || c = '-') && atNumber s) then
      let (t, r) := numberToken (c :: s)
      readTokens fuel close? (t :: acc) r
    else if c = '-' && Text.startsWith ['-', '>'] s then
      readTokens fuel close? (.other :: acc) (s.drop 2)
    else if c = '<' && Text.startsWith ['!', '-', '-'] s then
      readTokens fuel close? (.other :: acc) (s.drop 3)
    else if atName (c :: s) then
      let (n, r) := name (c :: s)
      match r with
      | '(' :: r =>
        let (inside, r) := readTokens fuel (some ')') [] r
        readTokens fuel close? (.function n inside :: acc) r
      | _ => readTokens fuel close? (.ident n :: acc) r
    else
      match opened? c with
      | some (bracket, closing) =>
        let (inside, r) := readTokens fuel (some closing) [] s
        readTokens fuel close? (.block bracket inside :: acc) r
      | none =>
        let (t, r) := plainToken c s
        readTokens fuel close? (t :: acc) r

/-- The tokens of a text. -/
def tokens (s : List Char) : List Token := (readTokens (s.length + 1) none [] s).1

end Scrape.Css
