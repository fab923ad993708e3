import Scrape.Number.Decimal
import Scrape.Text.Category
import Scrape.Text.Find

/-!
# Script — Token

The tokens of scripts.  A token is read on demand, because what a slash or a brace means depends on
where it stands: a slash is read as an operator, and whoever expects an expression reads the
regular expression that it starts (`readRegex?`); likewise a template is read in stretches up to
its end or to the next expression in it (`readTemplate?`).
-/

namespace Scrape.Script

open Scrape.Text (after? startsName continuesName isDigit)

/-- A token. -/
inductive Token where
  /-- A name or a keyword. -/
  | name (text : String)
  /-- An operator or a mark of punctuation. -/
  | punct (text : String)
  | number (value : Number)
  | bigInteger
  | string (value : String)
  /-- The quote that opens a template. -/
  | backquote
  | privateName
  /-- The end of the source. -/
  | done
  deriving DecidableEq

/-! ### Blanks and comments -/

/-- Whether the character ends a line. -/
def isLineEnd (c : Char) : Bool :=
  c = '\n' || c = '\r' || c.toNat = 0x2028 || c.toNat = 0x2029

/-- Whether the character is a blank within a line. -/
def isSpace (c : Char) : Bool :=
  c = ' ' || c = '\t' || c = '\x0b' || c = '\x0c' || c.toNat = 0xA0 || c.toNat = 0xFEFF
    || (!Text.isAscii c && Text.category c == "Zs")

/-- The text after blanks and comments, and whether a line ended among them or at `newline`;
nothing if a comment is not closed.  `fuel` bounds the length of the text. -/
def skipBlanks? : Nat → Bool → List Char → Option (Bool × List Char)
  | 0,        newline, s => some (newline, s)
  | fuel + 1, newline, s =>
    match s with
    | [] => some (newline, [])
    | '/' :: '/' :: r => skipBlanks? fuel newline (r.dropWhile fun c => !isLineEnd c)
    | '<' :: '!' :: '-' :: '-' :: r => skipBlanks? fuel newline (r.dropWhile fun c => !isLineEnd c)
    | '/' :: '*' :: r =>
      match Text.cut? ['*', '/'] r with
      | some (comment, r) => skipBlanks? fuel (newline || comment.any isLineEnd) r
      | none              => none
    | '-' :: '-' :: '>' :: r =>
      if newline then skipBlanks? fuel newline (r.dropWhile fun c => !isLineEnd c)
      else some (newline, s)
    | c :: r =>
      if isLineEnd c then skipBlanks? fuel true r
      else if isSpace c then skipBlanks? fuel newline r
      else some (newline, s)

/-! ### Escapes and strings -/

/-- A code point of hexadecimal digits between braces. -/
def readBracedPoint? (s : List Char) : Option (Nat × List Char) :=
  match s.span (· ≠ '\x7d') with
  | (digits, _ :: r) =>
    (Text.readNat? 16 digits).bind fun n => if n ≤ 0x10FFFF then some (n, r) else none
  | _ => none

/-- A number of exactly `count` hexadecimal digits. -/
def readHexDigits? (count : Nat) (s : List Char) : Option (Nat × List Char) :=
  if s.length < count then none
  else (Text.readNat? 16 (s.take count)).map fun n => (n, s.drop count)

/-- The code point of an escape after its mark `u`. -/
def readUnicodePoint? (s : List Char) : Option (Nat × List Char) :=
  match s with
  | '\x7b' :: r => readBracedPoint? r
  | r           => readHexDigits? 4 r

/-- Whether the code point is the first half of a pair. -/
def isHighHalf (n : Nat) : Bool := 0xD800 ≤ n && n ≤ 0xDBFF

/-- Whether the code point is the second half of a pair. -/
def isLowHalf (n : Nat) : Bool := 0xDC00 ≤ n && n ≤ 0xDFFF

/-- The code point of up to three octal digits, at most 255. -/
def readOctal (s : List Char) : Nat × List Char :=
  let digits := s.takeWhile fun c => '0' ≤ c && c ≤ '7'
  let value (n : Nat) := (Text.digitsValue? 8 0 (digits.take n)).getD 0
  let count := if 3 ≤ digits.length && value 3 ≤ 255 then 3 else min 2 digits.length
  (value count, s.drop count)

/-- The code points of an escape after its backslash, none for a line end. -/
def readEscape? (s : List Char) : Option (List Nat × List Char) :=
  match s with
  | []                => none
  | 'n' :: r          => some ([10], r)
  | 't' :: r          => some ([9], r)
  | 'r' :: r          => some ([13], r)
  | 'b' :: r          => some ([8], r)
  | 'v' :: r          => some ([11], r)
  | 'f' :: r          => some ([12], r)
  | 'x' :: r          => (readHexDigits? 2 r).map fun (n, r) => ([n], r)
  | 'u' :: r          => (readUnicodePoint? r).map fun (n, r) => ([n], r)
  | '\r' :: '\n' :: r => some ([], r)
  | c :: r            =>
    if isLineEnd c then some ([], r)
    else if '0' ≤ c && c ≤ '7' then
      let (n, r) := readOctal (c :: r)
      some ([n], r)
    else some ([c.toNat], r)

/-- The text of code points, with the halves of pairs joined; empty if half of a pair stands
alone. -/
def textOfPoints (points : List Nat) : String :=
  let rec join : List Nat → Option (List Char)
    | []     => some []
    | n :: r =>
      if isHighHalf n then
        match r with
        | m :: r =>
          if isLowHalf m then
            (join r).map (Char.ofNat (0x10000 + (n - 0xD800) * 0x400 + (m - 0xDC00)) :: ·)
          else none
        | [] => none
      else if isLowHalf n then none
      else (join r).map (Char.ofNat n :: ·)
  String.ofList ((join points).getD [])

/-- Reads a string literal after its quote; `points` holds its code points so far in reverse, and
`fuel` bounds the length of the text. -/
def readString? (quote : Char) : Nat → List Nat → List Char → Option (String × List Char)
  | 0,        _,      _  => none
  | _ + 1,    _,      [] => none
  | fuel + 1, points, c :: r =>
    if c = quote then some (textOfPoints points.reverse, r)
    else if c = '\\' then
      match readEscape? r with
      | some (more, r) => readString? quote fuel (more.reverse ++ points) r
      | none           => none
    else if c = '\n' || c = '\r' then none
    else readString? quote fuel (c.toNat :: points) r

/-! ### Numbers -/

/-- The text after digits of a radix, with low lines between them, and their value. -/
def readRadixDigits (radix : Nat) (s : List Char) : List Char × List Char :=
  let (digits, r) := s.span fun c => (Text.digitValue? radix c).isSome || c = '_'
  (digits.filter (· ≠ '_'), r)

/-- The end of a number: a mark for a big integer, and no letter or digit after it. -/
def endNumber? (value : Number) (big : Bool) (s : List Char) : Option (Token × List Char) :=
  let (token, r) := match big, s with
    | true, 'n' :: r => (Token.bigInteger, r)
    | _,    r        => (Token.number value, r)
  if r.head?.any startsName || r.head?.any isDigit || r.head? = some '\\' then none
  else some (token, r)

/-- Reads an integer of a radix after its mark. -/
def readRadix? (radix : Nat) (s : List Char) : Option (Token × List Char) :=
  let (digits, r) := readRadixDigits radix s
  match Text.readNat? radix digits with
  | some n => endNumber? (.ofNat n) true r
  | none   => none

/-- Reads an exponent, if its mark stands here. -/
def readExponent? (s : List Char) : Option (Option Int × List Char) :=
  match s with
  | e :: r =>
    if e = 'e' || e = 'E' then
      let (negative, r) := match r with
        | '+' :: r => (false, r)
        | '-' :: r => (true, r)
        | r        => (false, r)
      let (digits, r) := readRadixDigits 10 r
      (Text.readNat? 10 digits).map fun n => (some (if negative then -(n : Int) else n), r)
    else some (none, s)
  | [] => some (none, [])

/-- Reads a decimal number. -/
def readDecimal? (s : List Char) : Option (Token × List Char) :=
  let (whole, r) := readRadixDigits 10 s
  let (places?, r) : Option (List Char) × List Char := match r with
    | '.' :: r =>
      let (places, r) := readRadixDigits 10 r
      (some places, r)
    | r => (none, r)
  match readExponent? r with
  | none => none
  | some (exponent?, r) =>
    let places := places?.getD []
    let value := Number.ofDecimal false (Number.digitsNat (whole ++ places))
      (exponent?.getD 0 - places.length)
    endNumber? value (places?.isNone && exponent?.isNone) r

/-- Reads a number. -/
def readNumber? (s : List Char) : Option (Token × List Char) :=
  match s with
  | '0' :: c :: r =>
    if c = 'x' || c = 'X' then readRadix? 16 r
    else if c = 'o' || c = 'O' then readRadix? 8 r
    else if c = 'b' || c = 'B' then readRadix? 2 r
    else if isDigit c then
      let digits := (c :: r).takeWhile isDigit
      if digits.all fun d => d ≤ '7' then
        endNumber? (.ofNat ((Text.digitsValue? 8 0 digits).getD 0)) false
          ((c :: r).dropWhile isDigit)
      else readDecimal? s
    else readDecimal? s
  | s => readDecimal? s

/-! ### Names and punctuation -/

/-- Reads the rest of a name, of which the characters `acc` are held in reverse; `fuel` bounds the
length of the text. -/
def readNameFrom? : Nat → List Char → List Char → Option (List Char × List Char)
  | 0,        _,   _  => none
  | _ + 1,    acc, [] => some (acc.reverse, [])
  | fuel + 1, acc, c :: r =>
    let good (d : Char) : Bool := if acc.isEmpty then startsName d else continuesName d
    if c = '\\' then
      match r with
      | 'u' :: r =>
        match readUnicodePoint? r with
        | some (n, r) =>
          if good (Char.ofNat n) then readNameFrom? fuel (Char.ofNat n :: acc) r else none
        | none        => none
      | _ => none
    else if good c then readNameFrom? fuel (c :: acc) r
    else some (acc.reverse, c :: r)

/-- Reads a name that starts here. -/
def readName? (s : List Char) : Option (String × List Char) :=
  match readNameFrom? (s.length + 1) [] s with
  | some (name, r) => if name.isEmpty then none else some (String.ofList name, r)
  | none           => none

/-- The operators and marks of punctuation, each before its beginnings. -/
def puncts : List (List Char) :=
  [">>>=", "...", "===", "!==", "**=", "<<=", ">>=", ">>>", "&&=", "||=", "??=", "=>", "==", "!=",
   "<=", ">=", "&&", "||", "??", "?.", "++", "--", "+=", "-=", "*=", "/=", "%=", "&=", "|=", "^=",
   "<<", ">>", "**", "\x7b", "\x7d", "(", ")", "[", "]", ";", ",", "<", ">", "+", "-", "*", "/",
   "%", "&", "|", "^", "!", "~", "?", ":", "=", "."].map String.toList

/-- The mark of punctuation that the text starts with.  A question mark and a point are two marks
before a digit. -/
def readPunct? (s : List Char) : Option (String × List Char) :=
  (puncts.findSome? fun p => (after? p s).map fun r => (String.ofList p, r)).map fun (p, r) =>
    if p = "?." && r.head?.any isDigit then ("?", '.' :: r) else (p, r)

/-- Reads a token that starts here, without blanks before it. -/
def readToken? (s : List Char) : Option (Token × List Char) :=
  match s with
  | [] => some (.done, [])
  | c :: r =>
    if c = '"' || c = '\'' then (readString? c (r.length + 1) [] r).map fun (t, r) => (.string t, r)
    else if c = '\x60' then some (.backquote, r)
    else if isDigit c || (c = '.' && r.head?.any isDigit) then readNumber? s
    else if startsName c || c = '\\' then (readName? s).map fun (n, r) => (.name n, r)
    else if c = '#' then (readName? r).map fun (_, r) => (.privateName, r)
    else (readPunct? s).map fun (p, r) => (.punct p, r)

/-! ### Regular expressions and templates -/

/-- Reads the body of a regular expression up to its slash; a slash in brackets or after a
backslash is part of it.  `acc` holds the body so far in reverse. -/
def readRegexBody? (bracketed : Bool) (acc : List Char) : List Char → Option (List Char × List Char)
  | []                => none
  | '\\' :: c :: r    =>
    if isLineEnd c then none else readRegexBody? bracketed (c :: '\\' :: acc) r
  | c :: r            =>
    if isLineEnd c then none
    else if c = '/' && !bracketed then some (acc.reverse, r)
    else readRegexBody? (if c = '[' then true else if c = ']' then false else bracketed)
      (c :: acc) r

/-- Reads a regular expression after its slash: its source, its flags and the rest. -/
def readRegex? (s : List Char) : Option (String × String × List Char) :=
  match readRegexBody? false [] s with
  | some (body, r) =>
    let (flags, r) := r.span continuesName
    some (String.ofList body, String.ofList flags, r)
  | none => none

/-- Whether the escape after a backslash may stand in a template. -/
def isTemplateEscape (s : List Char) : Bool :=
  match s with
  | '0' :: c :: _ => !('0' ≤ c && c ≤ '7')
  | 'x' :: r      => (readHexDigits? 2 r).isSome
  | 'u' :: r      => (readUnicodePoint? r).isSome
  | c :: _        => !('1' ≤ c && c ≤ '7')
  | []            => false

/-- Reads a stretch of a template as it is written: its text, whether its escapes are all good,
whether an expression follows it, and the rest.  `acc` holds the text so far in reverse. -/
def readTemplate? (good : Bool) (acc : List Char) :
    List Char → Option (String × Bool × Bool × List Char)
  | []                  => none
  | '\x60' :: r         => some (String.ofList acc.reverse, good, false, r)
  | '$' :: '\x7b' :: r  => some (String.ofList acc.reverse, good, true, r)
  | '\\' :: c :: r      => readTemplate? (good && isTemplateEscape (c :: r)) (c :: '\\' :: acc) r
  | '\r' :: '\n' :: r   => readTemplate? good ('\n' :: acc) r
  | '\r' :: r           => readTemplate? good ('\n' :: acc) r
  | c :: r              => readTemplate? good (c :: acc) r

end Scrape.Script
