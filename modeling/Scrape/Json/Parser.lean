import Scrape.Json.Basic
import Scrape.Number.Arithmetic

/-!
# Json — Parser

Reading JSON text.  Arrays and objects nest to a depth of 127.  A repeated key keeps the place of
its first field and takes the value of the last.  A fraction is read as its first digits, as many
as an unsigned integer of 64 bits holds, taken as a double and then multiplied or divided by a
power of ten; so a long fraction is rounded twice.  A fraction past the largest double is an error.
-/

namespace Scrape.Json

/-- The blanks of JSON. -/
def isJsonBlank (c : Char) : Bool := c = ' ' || c = '\n' || c = '\t' || c = '\r'

/-- The text after its leading blanks. -/
def skipBlanks (s : List Char) : List Char := s.dropWhile isJsonBlank

/-! ### Numbers -/

/-- The largest unsigned integer of 64 bits. -/
def maxSignificand : Nat := 0xFFFFFFFFFFFFFFFF

/-- `x` scaled by ten to the power `exponent`, one rounding for each factor of at most `10 ^ 308`;
nothing when it leaves the range of a double. -/
def scaleByTen : Nat → Number → Int → Option Number
  | 0,        x, _ => some x
  | fuel + 1, x, exponent =>
    if exponent.natAbs ≤ 308 then
      let power := Number.ofNat (Nat.pow 10 exponent.natAbs)
      if 0 ≤ exponent then
        let y := x.mul power
        if y.isFinite then some y else none
      else some (x.div power)
    else if x.isZero then some x
    else if 0 ≤ exponent then none
    else scaleByTen fuel (x.div (.ofNat (Nat.pow 10 308))) (exponent + 308)

/-- The fraction with a significand, a power of ten and a sign. -/
def fraction? (negative : Bool) (significand : Nat) (exponent : Int) : Option Number :=
  (scaleByTen (exponent.natAbs / 308 + 2) (.ofNat significand) exponent).map fun x =>
    if negative then x.neg else x

/-- Reads digits into a significand until it would pass 64 bits: the significand, how many digits
were read, and the rest. -/
def readSignificand (significand count : Nat) : List Char → Nat × Nat × List Char
  | []     => (significand, count, [])
  | c :: s =>
    match Text.digitValue? 10 c with
    | none   => (significand, count, c :: s)
    | some d =>
      if maxSignificand < significand * 10 + d then (significand, count, c :: s)
      else readSignificand (significand * 10 + d) (count + 1) s

/-- The largest exponent that is counted. -/
def maxExponentDigits : Nat := 0x7FFFFFFF

/-- Reads the digits of an exponent; one past the largest counts as none. -/
def readExponentDigits (value : Option Nat) : List Char → Option Nat × List Char
  | []     => (value, [])
  | c :: s =>
    match Text.digitValue? 10 c with
    | none   => (value, c :: s)
    | some d =>
      readExponentDigits (value.bind fun v =>
        if maxExponentDigits < v * 10 + d then none else some (v * 10 + d)) s

/-- Reads an exponent, of which the mark has been read, and makes the fraction. -/
def readExponent? (negative : Bool) (significand : Nat) (start : Int) (s : List Char) :
    Option (JsonNumber × List Char) :=
  let (down, s) := match s with
    | '+' :: r => (false, r)
    | '-' :: r => (true, r)
    | r        => (false, r)
  match s with
  | []     => none
  | c :: _ =>
    if !Text.isDigit c then none else
      match readExponentDigits (some 0) s with
      | (some e, rest) =>
        let exponent : Int := if down then start - e else start + e
        (fraction? negative significand exponent).map fun x => (.fraction x, rest)
      | (none, rest) =>
        if significand ≠ 0 ∧ !down then none
        else some (.fraction (if negative then .negZero else .finite 0), rest)

/-- Makes the fraction that ends here, or reads its exponent. -/
def readAfterDigits? (negative : Bool) (significand : Nat) (exponent : Int) (s : List Char) :
    Option (JsonNumber × List Char) :=
  match s with
  | 'e' :: r => readExponent? negative significand exponent r
  | 'E' :: r => readExponent? negative significand exponent r
  | r        => (fraction? negative significand exponent).map fun x => (.fraction x, r)

/-- Reads the places after the point, which has been read. -/
def readPlaces? (negative : Bool) (significand : Nat) (exponent : Int) (s : List Char) :
    Option (JsonNumber × List Char) :=
  let (value, count, rest) := readSignificand significand 0 s
  match rest with
  | c :: _ =>
    if Text.isDigit c then
      readAfterDigits? negative value (exponent - count) (rest.dropWhile Text.isDigit)
    else if count = 0 then none
    else readAfterDigits? negative value (exponent - count) rest
  | [] => if count = 0 then none else readAfterDigits? negative value (exponent - count) []

/-- The integer of a sign and a magnitude; minus zero and what is below the signed range are
fractions. -/
def integer (negative : Bool) (magnitude : Nat) : JsonNumber :=
  if !negative then .integer magnitude
  else if magnitude = 0 || 0x8000000000000000 < magnitude then
    .fraction (Number.ofNat magnitude).neg
  else .integer (-(magnitude : Int))

/-- Reads a number of which the sign has been read. -/
def readNumber? (negative : Bool) (s : List Char) : Option (JsonNumber × List Char) :=
  match s with
  | [] => none
  | c :: r =>
    if !Text.isDigit c then none
    else if c = '0' && (r.head?.any Text.isDigit) then none
    else
      let (value, _, rest) := readSignificand 0 0 s
      match rest with
      | '.' :: r => readPlaces? negative value 0 r
      | 'e' :: r => readExponent? negative value 0 r
      | 'E' :: r => readExponent? negative value 0 r
      | d :: _   =>
        if Text.isDigit d then
          let more := rest.takeWhile Text.isDigit
          match rest.dropWhile Text.isDigit with
          | '.' :: r => readPlaces? negative value more.length r
          | r        => readAfterDigits? negative value more.length r
        else some (integer negative value, rest)
      | [] => some (integer negative value, [])

/-! ### Strings -/

/-- Reads four hexadecimal digits. -/
def readHex4? (s : List Char) : Option (Nat × List Char) :=
  match s with
  | a :: b :: c :: d :: r => (Text.digitsValue? 16 0 [a, b, c, d]).map fun n => (n, r)
  | _                     => none

/-- Reads the rest of a Unicode escape after its mark: one unit, or two that make a pair. -/
def readUnicode? (s : List Char) : Option (Char × List Char) :=
  match readHex4? s with
  | none => none
  | some (n, r) =>
    if 0xDC00 ≤ n ∧ n ≤ 0xDFFF then none
    else if 0xD800 ≤ n ∧ n ≤ 0xDBFF then
      match r with
      | '\\' :: 'u' :: r =>
        match readHex4? r with
        | some (m, r) =>
          if 0xDC00 ≤ m ∧ m ≤ 0xDFFF then
            some (Char.ofNat (0x10000 + (n - 0xD800) * 0x400 + (m - 0xDC00)), r)
          else none
        | none => none
      | _ => none
    else some (Char.ofNat n, r)

/-- Reads an escape after its backslash. -/
def readEscape? (s : List Char) : Option (Char × List Char) :=
  match s with
  | '"' :: r  => some ('"', r)
  | '\\' :: r => some ('\\', r)
  | '/' :: r  => some ('/', r)
  | 'b' :: r  => some ('\x08', r)
  | 'f' :: r  => some ('\x0c', r)
  | 'n' :: r  => some ('\n', r)
  | 'r' :: r  => some ('\r', r)
  | 't' :: r  => some ('\t', r)
  | 'u' :: r  => readUnicode? r
  | _         => none

/-- Reads a string to its closing quote, after the characters `acc`, which are held in reverse;
`fuel` bounds the length of the text. -/
def readString? : Nat → List Char → List Char → Option (String × List Char)
  | 0,        _,   _ => none
  | _ + 1,    _,   [] => none
  | fuel + 1, acc, c :: s =>
    if c = '"' then some (String.ofList acc.reverse, s)
    else if c = '\\' then
      match readEscape? s with
      | some (c, r) => readString? fuel (c :: acc) r
      | none        => none
    else if c.toNat < 32 then none
    else readString? fuel (c :: acc) s

/-! ### Values -/

/-- A reader of a value. -/
abbrev Reader := List Char → Option (Json × List Char)

/-- Reads the items of an array, of which one has to follow, up to its bracket. -/
def readItems? (value : Reader) : Nat → List Json → List Char → Option (List Json × List Char)
  | 0,        _,   _ => none
  | fuel + 1, acc, s =>
    match value (skipBlanks s) with
    | none        => none
    | some (v, r) =>
      match skipBlanks r with
      | ',' :: r => readItems? value fuel (v :: acc) r
      | ']' :: r => some ((v :: acc).reverse, r)
      | _        => none

/-- Reads the fields of an object, of which one has to follow, up to its brace, in a text of some
size. -/
def readFields? (size : Nat) (value : Reader) :
    Nat → List (String × Json) → List Char → Option (List (String × Json) × List Char)
  | 0,        _,   _ => none
  | fuel + 1, acc, s =>
    match skipBlanks s with
    | '"' :: r =>
      match readString? size [] r with
      | none        => none
      | some (k, r) =>
        match skipBlanks r with
        | ':' :: r =>
          match value (skipBlanks r) with
          | none        => none
          | some (v, r) =>
            let acc := Keyed.put k v acc
            match skipBlanks r with
            | ',' :: r => readFields? size value fuel acc r
            | '\x7d' :: r => some (acc, r)
            | _        => none
        | _ => none
    | _ => none

/-- Reads a value that starts here, with `depth` levels of arrays and objects left, in a text of
some size. -/
def readValue? (size : Nat) : Nat → Reader
  | depth, s =>
    match s with
    | 'n' :: 'u' :: 'l' :: 'l' :: r        => some (.null, r)
    | 't' :: 'r' :: 'u' :: 'e' :: r        => some (.bool true, r)
    | 'f' :: 'a' :: 'l' :: 's' :: 'e' :: r => some (.bool false, r)
    | '"' :: r =>
      (readString? size [] r).map fun (t, r) => (.string t, r)
    | '-' :: r => (readNumber? true r).map fun (n, r) => (.number n, r)
    | '[' :: r =>
      match depth with
      | 0         => none
      | depth + 1 =>
        match skipBlanks r with
        | ']' :: r => some (.array [], r)
        | r        =>
          (readItems? (readValue? size depth) size [] r).map fun (vs, r) => (.array vs, r)
    | '\x7b' :: r =>
      match depth with
      | 0         => none
      | depth + 1 =>
        match skipBlanks r with
        | '\x7d' :: r => some (.object [], r)
        | r        =>
          (readFields? size (readValue? size depth) size [] r).map fun (fs, r) => (.object fs, r)
    | r => (readNumber? false r).map fun (n, r) => (.number n, r)

/-- The depth to which arrays and objects nest. -/
def maxDepth : Nat := 127

/-- The value of a text that holds one value and blanks. -/
def parse? (s : List Char) : Option Json :=
  match readValue? s.length maxDepth (skipBlanks s) with
  | some (v, r) => if (skipBlanks r).isEmpty then some v else none
  | none        => none

end Scrape.Json
