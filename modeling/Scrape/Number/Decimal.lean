import Scrape.Number.Basic
import Scrape.Text.Integer

/-!
# Number — Decimal

Numbers in decimal.  Writing: the fewest digits that read back as the same double
(`shortestDigits`), laid out without an exponent or with one, and a fixed count of places.
Reading: the double nearest to a decimal fraction.
-/

namespace Scrape.Number

open Scrape.Text (decimal)

/-! ### The fewest digits -/

/-- The exponent `d` with `10 ^ d ≤ num / den < 10 ^ (d + 1)`, for a positive fraction. -/
def log10Floor (num den : Nat) : Int :=
  let atLeast (d : Int) : Bool := den * Nat.pow 10 d.toNat ≤ num * Nat.pow 10 (-d).toNat
  let guess : Int := (log2Floor num den * 1233) / 4096
  if atLeast (guess + 1) then guess + 1 else if atLeast guess then guess else guess - 1

/-- The multiple of ten to the power `scale`, as a count, that lies nearest to the double of `m`
units of two to the power `u` and within the interval of what rounds to that double; the greater of
two that are equally near. -/
def digitsWithin? (m : Nat) (u : Int) (scale : Int) : Option Nat :=
  let w := u - 2
  let a := Nat.pow 10 scale.toNat * Nat.pow 2 (-w).toNat
  let b := Nat.pow 2 w.toNat * Nat.pow 10 (-scale).toNat
  let low := (if m = hiddenBit ∧ minExponent < u then 4 * m - 1 else 4 * m - 2) * b
  let high := (4 * m + 2) * b
  let value := 4 * m * b
  let within (n : Nat) : Bool :=
    if m % 2 = 0 then low ≤ n * a && n * a ≤ high else low < n * a && n * a < high
  let below := value / a
  let above := below + 1
  let nearer := if above * a - value ≤ value - below * a then above else below
  if within nearer then some nearer
  else if within below then some below
  else if within above then some above
  else none

/-- The digits of a natural number without the zeros at its end, which are counted. -/
def dropZeros : Nat → Nat → Nat × Nat
  | 0,        n => (n, 0)
  | fuel + 1, n =>
    if n ≠ 0 ∧ n % 10 = 0 then
      let (d, z) := dropZeros fuel (n / 10)
      (d, z + 1)
    else (n, 0)

/-- The fewest digits, with the power of ten that scales them, that read back as the positive
double `num / den`. -/
def shortestDigits (num den : Nat) : Nat × Int :=
  let (m, u) := nearest num den
  let top := log10Floor num den
  let found := (List.range 17).findSome? fun (k : Nat) =>
    (digitsWithin? m u (top - k)).map fun n => (n, top - k)
  let (n, scale) := found.getD (0, 0)
  let (d, zeros) := dropZeros 20 n
  (d, scale + zeros)

/-! ### Layout -/

/-- The digits `d` scaled by ten to the power `scale`, without an exponent. -/
def plainText (d : Nat) (scale : Int) : List Char :=
  let digits := decimal d
  if 0 ≤ scale then digits ++ List.replicate scale.toNat '0'
  else
    let places := (-scale).toNat
    if places < digits.length then
      digits.take (digits.length - places) ++ '.' :: digits.drop (digits.length - places)
    else '0' :: '.' :: List.replicate (places - digits.length) '0' ++ digits

/-- The digits `d` scaled by ten to the power `scale`, with one digit before the point and an
exponent that is signed. -/
def exponentText (d : Nat) (scale : Int) : List Char :=
  let digits := decimal d
  let e := scale + digits.length - 1
  let mantissa := match digits with
    | [c]    => [c]
    | c :: r => c :: '.' :: r
    | []     => []
  mantissa ++ 'e' :: (if 0 ≤ e then '+' else '-') :: decimal e.natAbs

/-- The text of a sign and a magnitude. -/
def withSign (negative : Bool) (text : List Char) : List Char :=
  if negative then '-' :: text else text

/-- The number as scripts write it: an integer below `10 ^ 21` in full, all else with the fewest
digits that read back and never an exponent; both zeros are `0`. -/
def text (x : Number) : List Char :=
  match x with
  | nan        => "NaN".toList
  | infinite s => if s then "-Infinity".toList else "Infinity".toList
  | negZero    => ['0']
  | finite q   =>
    if q = 0 then ['0']
    else if q.den = 1 ∧ q.num.natAbs < Nat.pow 10 21 then Text.decimalInt q.num
    else
      let (d, scale) := shortestDigits q.num.natAbs q.den
      withSign (q.num < 0) (plainText d scale)

/-- The finite number as JSON text writes a fraction: positional from `0.00001` up to below
`10 ^ 16`, with `.0` after an integer, and else with an exponent. -/
def fractionText (x : Number) : List Char :=
  match x with
  | negZero  => "-0.0".toList
  | finite q =>
    if q = 0 then "0.0".toList
    else
      let num := q.num.natAbs
      let (d, scale) := shortestDigits num q.den
      withSign (q.num < 0) <|
        if q.den ≤ num * Nat.pow 10 5 ∧ num < q.den * Nat.pow 10 16 then
          plainText d scale ++ if 0 ≤ scale then ".0".toList else []
        else exponentText d scale
  | _ => []

/-- The number with a fixed count of decimal places, half a place going to the even digit. -/
def fixedText (places : Nat) (x : Number) : List Char :=
  match x with
  | nan        => "NaN".toList
  | infinite s => withSign s "inf".toList
  | _          =>
    let q := x.toRat?.getD 0
    let scaled := decimal (halfEven (q.num.natAbs * Nat.pow 10 places) q.den)
    let digits := List.replicate (places + 1 - scaled.length) '0' ++ scaled
    withSign x.isNegative <|
      if places = 0 then digits
      else digits.take (digits.length - places) ++ '.' :: digits.drop (digits.length - places)

/-- The digits of an integer in a radix, at most what 64 bits hold; in the radix ten, in a radix
out of range and for what is no integer, the decimal text. -/
def radixText (radix : Nat) (x : Number) : List Char :=
  if radix = 10 || radix < 2 || 36 < radix || !x.isIntegral then x.text
  else
    let n := Min.min ((x.truncated?.getD 0).natAbs) 0xFFFFFFFFFFFFFFFF
    withSign (x.isNegative && !x.isZero) (Text.radixDigits radix n)

/-! ### Reading -/

/-- The double nearest to `digits * 10 ^ exponent`, with a sign. -/
def ofDecimal (negative : Bool) (digits : Nat) (exponent : Int) : Number :=
  let size : Int := (decimal digits).length + exponent
  if digits = 0 || size < -400 then ofMagnitude negative 0 1
  else if 400 < size then infinite negative
  else if 0 ≤ exponent then ofMagnitude negative (digits * Nat.pow 10 exponent.toNat) 1
  else ofMagnitude negative digits (Nat.pow 10 (-exponent).toNat)

/-- The digits at the start, and what follows them. -/
def spanDigits (s : List Char) : List Char × List Char := s.span Text.isDigit

/-- The value of decimal digits. -/
def digitsNat (s : List Char) : Nat := (Text.digitsValue? 10 0 s).getD 0

/-- A decimal exponent, sign and digits, that makes up the whole text. -/
def exponent? (s : List Char) : Option Int :=
  match s with
  | '-' :: r => (Text.readNat? 10 r).map fun n => -(n : Int)
  | '+' :: r => (Text.readNat? 10 r).map Int.ofNat
  | r        => (Text.readNat? 10 r).map Int.ofNat

/-- The digits after a point, if the text begins with one, and what follows them. -/
def spanPlaces (s : List Char) : List Char × List Char :=
  match s with
  | '.' :: r => spanDigits r
  | r        => ([], r)

/-- A decimal exponent with its mark that makes up the whole text; it is zero if there is no text. -/
def markedExponent? (s : List Char) : Option Int :=
  match s with
  | []       => some 0
  | 'e' :: r => exponent? r
  | 'E' :: r => exponent? r
  | _        => none

/-- A decimal fraction without a sign: digits with a point among them or at an end, at least one
digit, and an exponent or none. -/
def readUnsigned? (negative : Bool) (s : List Char) : Option Number :=
  let (whole, r) := spanDigits s
  let (places, r) := spanPlaces r
  if whole.isEmpty && places.isEmpty then none
  else (markedExponent? r).map fun e =>
    ofDecimal negative (digitsNat (whole ++ places)) (e - places.length)

/-- A decimal fraction with a sign or without. -/
def readDecimal? (s : List Char) : Option Number :=
  match s with
  | '-' :: r => readUnsigned? true r
  | '+' :: r => readUnsigned? false r
  | r        => readUnsigned? false r

end Scrape.Number
