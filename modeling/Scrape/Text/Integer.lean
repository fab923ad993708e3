/-!
# Text — Integer

Writing integers in decimal, and reading them with the range of 64 bits: counts without a sign or
with a plus, signed integers with either sign.
-/

namespace Scrape.Text

/-- Whether the character is a decimal digit of ASCII. -/
def isDigit (c : Char) : Bool := '0' ≤ c && c ≤ '9'

/-- The value of a digit in a radix of at most 36; letters of both cases count from ten on. -/
def digitValue? (radix : Nat) (c : Char) : Option Nat :=
  let n :=
    if '0' ≤ c && c ≤ '9' then c.toNat - '0'.toNat
    else if 'a' ≤ c && c ≤ 'z' then c.toNat - 'a'.toNat + 10
    else if 'A' ≤ c && c ≤ 'Z' then c.toNat - 'A'.toNat + 10
    else radix
  if n < radix then some n else none

/-- The value of digits, after those with the value `acc`; nothing if one is no digit. -/
def digitsValue? (radix acc : Nat) : List Char → Option Nat
  | []     => some acc
  | c :: s =>
    match digitValue? radix c with
    | some d => digitsValue? radix (acc * radix + d) s
    | none   => none

/-- The value of one digit or more. -/
def readNat? (radix : Nat) (s : List Char) : Option Nat :=
  if s.isEmpty then none else digitsValue? radix 0 s

/-- The value of digits with a sign or without, if it lies within the signed range of 64 bits. -/
def readSigned? (radix : Nat) (s : List Char) : Option Int :=
  let value? : Option Int :=
    match s with
    | '-' :: r => (readNat? radix r).map fun n => -(n : Int)
    | '+' :: r => (readNat? radix r).map Int.ofNat
    | r        => (readNat? radix r).map Int.ofNat
  value?.filter fun i => -0x8000000000000000 ≤ i && i < 0x8000000000000000

/-- A decimal integer of the signed range of 64 bits. -/
def readInteger? (s : List Char) : Option Int := readSigned? 10 s

/-- A decimal count of the unsigned range of 64 bits. -/
def readCount? (s : List Char) : Option Nat :=
  let digits := match s with
    | '+' :: r => r
    | r        => r
  (readNat? 10 digits).filter (· < 0x10000000000000000)

/-- The decimal digits of a natural number. -/
def decimal (n : Nat) : List Char := Nat.toDigits 10 n

/-- The digit of a value below 36, a small letter from ten on. -/
def digitChar (d : Nat) : Char :=
  if d < 10 then Char.ofNat ('0'.toNat + d) else Char.ofNat ('a'.toNat + (d - 10))

/-- The digits of `n` in a radix of at least two, before the digits `acc`; `fuel` bounds their
number. -/
def radixDigitsAux (radix : Nat) : Nat → Nat → List Char → List Char
  | 0,        _, acc => acc
  | fuel + 1, n, acc =>
    let acc := digitChar (n % radix) :: acc
    if n < radix then acc else radixDigitsAux radix fuel (n / radix) acc

/-- The digits of `n` in a radix from two to 36. -/
def radixDigits (radix n : Nat) : List Char := radixDigitsAux radix (n.log2 + 1) n []

/-- The decimal form of an integer. -/
def decimalInt (i : Int) : List Char :=
  if i < 0 then '-' :: decimal i.natAbs else decimal i.natAbs

end Scrape.Text
