import Scrape.Number.Arithmetic
import Scrape.Number.Decimal
import Scrape.Text.Blank
import Scrape.Text.Category
import Scrape.Text.Find

/-!
# Number — Reading

The three ways in which scripts read a number in a text: the whole text (`ofText`), the integer it
begins with (`leadingInteger`), and the decimal fraction it begins with (`leadingFraction`).
-/

namespace Scrape.Number

/-- What follows the mark of a hexadecimal integer. -/
def afterHexMark? (s : List Char) : Option (List Char) :=
  match s with
  | '0' :: 'x' :: r => some r
  | '0' :: 'X' :: r => some r
  | _               => none

/-- The number a whole text stands for: a blank text is zero, and what is not a number throughout
is not a number. -/
def ofText (s : List Char) : Number :=
  let t := Text.trim s
  if t.isEmpty then finite 0
  else match afterHexMark? t with
  | some digits =>
    match Text.readSigned? 16 digits with
    | some i => ofInt i
    | none   => nan
  | none =>
    if t = "Infinity".toList || t = "+Infinity".toList then infinite false
    else if t = "-Infinity".toList then infinite true
    else (readDecimal? t).getD nan

/-- The radix and the digits to read for an integer at the start of `s`, with the radix asked for
or none; nothing when the radix is out of range. -/
def radixAndDigits? (radix? : Option Number) (s : List Char) : Option (Nat × List Char) :=
  match radix?, afterHexMark? s with
  | none, some r => some (16, r)
  | none, none   => some (10, s)
  | some r, hex? =>
    if let (some digits, 16) := (hex?, saturate 0 0xFFFFFFFF r) then some (16, digits)
    else if !(r.lt (finite 2)) && !((finite 36).lt r) && !r.isNaN then
      some ((saturate 0 0xFFFFFFFF r).toNat, s)
    else none

/-- The integer that a text begins with, in the radix asked for; a radix of none is ten, or sixteen
after the mark of a hexadecimal integer. -/
def leadingInteger (s : List Char) (radix? : Option Number) : Number :=
  let t := Text.trimStart s
  let (negative, t) := match t with
    | '-' :: r => (true, r)
    | '+' :: r => (false, r)
    | r        => (false, r)
  match radixAndDigits? radix? t with
  | none => nan
  | some (radix, digits) =>
    let valid := digits.map (Text.digitValue? radix) |>.takeWhile Option.isSome
    if valid.isEmpty then nan
    else
      let value := valid.foldl (fun acc d => (acc.mul (ofNat radix)).add (ofNat (d.getD 0)))
        (finite 0)
      if negative then value.neg else value

/-- The decimal digits of any writing system at the start, and what follows them. -/
def spanDecimalDigits (s : List Char) : List Char × List Char := s.span Text.isDecimalDigit

/-- The exponent at the start of `s` with its mark, if its digits are there. -/
def exponentPart (s : List Char) : List Char :=
  match s with
  | e :: r =>
    if e = 'e' || e = 'E' then
      let (sign, r) := match r with
        | '+' :: r => (['+'], r)
        | '-' :: r => (['-'], r)
        | r        => ([], r)
      let digits := (spanDecimalDigits r).1
      if digits.isEmpty then [] else e :: sign ++ digits
    else []
  | [] => []

/-- The decimal fraction without a sign at the start of `s`. -/
def fractionPart (s : List Char) : List Char :=
  let (whole, r) := spanDecimalDigits s
  if whole.isEmpty then
    match r with
    | '.' :: r =>
      let (places, r) := spanDecimalDigits r
      if places.isEmpty then [] else '.' :: places ++ exponentPart r
    | _ => []
  else
    match r with
    | '.' :: r =>
      let (places, r) := spanDecimalDigits r
      whole ++ '.' :: places ++ exponentPart r
    | r => whole ++ exponentPart r

/-- The decimal fraction or infinity that a text begins with.  Digits of all writing systems belong
to the fraction, but only those of ASCII have a value. -/
def leadingFraction (s : List Char) : Number :=
  let t := Text.trimStart s
  let (sign, r) := match t with
    | '+' :: r => (['+'], r)
    | '-' :: r => (['-'], r)
    | r        => ([], r)
  if Text.startsWith "Infinity".toList r then ofText (sign ++ "Infinity".toList)
  else
    let part := fractionPart r
    if part.isEmpty then nan else ofText (sign ++ part)

end Scrape.Number
