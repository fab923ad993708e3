import Scrape.Text.Integer

/-!
# Text — Percent

Texts as parts of addresses: each byte that is not a letter, a digit or one of `-_.~` is written as
a percent sign and two hexadecimal digits.
-/

namespace Scrape.Text

/-- Whether the byte is written as it is. -/
def isUnreserved (b : UInt8) : Bool :=
  let c := Char.ofNat b.toNat
  b < 128 && (c.isAlphanum || c = '-' || c = '_' || c = '.' || c = '~')

/-- The capital hexadecimal digit of a value below 16. -/
def hexDigitUpper (n : Nat) : Char := (digitChar (n % 16)).toUpper

/-- A byte as a percent sign and two digits. -/
def percentByte (b : UInt8) : List Char :=
  ['%', hexDigitUpper (b.toNat / 16), hexDigitUpper b.toNat]

/-- The text as a part of an address. -/
def percentEncoded (s : String) : List Char :=
  s.toUTF8.toList.flatMap fun b => if isUnreserved b then [Char.ofNat b.toNat] else percentByte b

/-- The value of a byte that is a hexadecimal digit. -/
def hexValue? (b : UInt8) : Option UInt8 :=
  (digitValue? 16 (Char.ofNat b.toNat)).map Nat.toUInt8

/-- The bytes with each percent sign before two hexadecimal digits taken as one byte, after the
bytes `acc`, which are held in reverse. -/
def percentDecodedBytes (acc : List UInt8) : List UInt8 → List UInt8
  | []              => acc.reverse
  | [a]             => (a :: acc).reverse
  | [a, b]          => (b :: a :: acc).reverse
  | a :: b :: c :: r =>
    if a = 0x25 then
      match hexValue? b, hexValue? c with
      | some x, some y => percentDecodedBytes ((x * 16 + y) :: acc) r
      | _,      _      => percentDecodedBytes (a :: acc) (b :: c :: r)
    else percentDecodedBytes (a :: acc) (b :: c :: r)

/-- The text of a part of an address, if its bytes are a text. -/
def percentDecoded? (s : String) : Option String :=
  String.fromUTF8? ⟨(percentDecodedBytes [] s.toUTF8.toList).toArray⟩

end Scrape.Text
