import Scrape.Address.Basic
import Scrape.Address.Label
import Scrape.Text.Find

/-!
# Address — Host

The hosts of addresses: names, and numbers of four or of sixteen bytes.  A name whose last label is
a number has to be a number of four bytes.
-/

namespace Scrape.Address

open Scrape.Text (splitOn digitValue? isDigit readNat?)

/-! ### Four bytes -/

/-- A part of a number of four bytes: decimal, octal after a zero, or hexadecimal after `0x`. -/
def numberPart? (s : List Char) : Option Nat :=
  match s with
  | []             => none
  | '0' :: 'x' :: r => if r.isEmpty then some 0 else readNat? 16 r
  | '0' :: 'X' :: r => if r.isEmpty then some 0 else readNat? 16 r
  | '0' :: r        => if r.isEmpty then some 0 else readNat? 8 r
  | r               => readNat? 10 r

/-- The labels of a name, without an empty one at the end. -/
def labels (name : List Char) : List (List Char) :=
  let parts := splitOn ['.'] name
  if parts.length > 1 && parts.getLast? == some [] then parts.dropLast else parts

/-- Whether the last label of a name is a number. -/
def endsInNumber (name : List Char) : Bool :=
  match (labels name).getLast? with
  | some last => (!last.isEmpty && last.all isDigit) || (numberPart? last).isSome
  | none      => false

/-- The number of four bytes that a name is; the last part takes all bytes that are left. -/
def fourBytes? (name : List Char) : Option Nat :=
  let parts := labels name
  if 4 < parts.length then none
  else
    match parts.mapM numberPart? with
    | none         => none
    | some numbers =>
      let init := numbers.dropLast
      let last := numbers.getLast?.getD 0
      if init.any (255 < ·) || Nat.pow 256 (4 - init.length) ≤ last then none
      else some (init.zipIdx.foldl (fun n (b, i) => n + b * Nat.pow 256 (3 - i)) last)

/-- A number of four bytes as it is written. -/
def fourBytesText (n : Nat) : List Char :=
  ['.'].intercalate ([3, 2, 1, 0].map fun i => Text.decimal (n / Nat.pow 256 i % 256))

/-! ### Sixteen bytes -/

/-- The two pieces, of two bytes each, of a number of four bytes in decimal. -/
def decimalPieces? (s : List Char) : Option (List Nat) :=
  let part? (p : List Char) : Option Nat :=
    if p.isEmpty || (p.length > 1 && p.head? = some '0') then none
    else (if p.all isDigit then readNat? 10 p else none).filter (· ≤ 255)
  match (splitOn ['.'] s).mapM part? with
  | some [a, b, c, d] => some [a * 256 + b, c * 256 + d]
  | _                 => none

/-- The pieces between single colons; the last may be a number of four bytes in decimal. -/
def pieces? (isLast : Bool) (s : List Char) : Option (List Nat) :=
  if s.isEmpty then some []
  else
    let parts := splitOn [':'] s
    let piece? (p : List Char) : Option Nat :=
      if p.isEmpty || 4 < p.length then none else readNat? 16 p
    match parts.reverse with
    | last :: init =>
      if isLast && last.contains '.' then do
        pure ((← init.reverse.mapM piece?) ++ (← decimalPieces? last))
      else parts.mapM piece?
    | [] => some []

/-- The eight pieces of a number of sixteen bytes. -/
def sixteenBytes? (s : List Char) : Option (List Nat) :=
  match splitOn [':', ':'] s with
  | [all] => (pieces? true all).filter fun l => l.length = 8
  | [before, after] => do
    let a ← pieces? false before
    let b ← pieces? true after
    if a.length + b.length < 8 then
      pure (a ++ List.replicate (8 - a.length - b.length) 0 ++ b)
    else none
  | _ => none

/-- The start and the length of the first of the longest runs of zeros, from an index on. -/
def longestZeros (index : Nat) : List Nat → Nat × Nat
  | []      => (0, 0)
  | n :: r =>
    let here := ((n :: r).takeWhile (· = 0)).length
    let (start, length) := longestZeros (index + 1) r
    if here ≥ length && here > 0 then (index, here) else (start, length)

/-- A number of sixteen bytes as it is written. -/
def sixteenBytesText (pieces : List Nat) : List Char :=
  let written (l : List Nat) : List Char := [':'].intercalate (l.map (Text.radixDigits 16))
  let (start, length) := longestZeros 0 pieces
  if length < 2 then written pieces
  else written (pieces.take start) ++ [':', ':'] ++ written (pieces.drop (start + length))

/-! ### Names -/

/-- The characters that no name of a host has. -/
def isForbidden (c : Char) : Bool :=
  c.toNat ≤ 0x20 || c.toNat = 0x7F
    || ['%', '#', '/', ':', '<', '>', '?', '@', '[', '\\', ']', '^', '|'].contains c

/-- A letter as names have it: small, full-width forms made plain, and points of any kind made
full stops. -/
def nameChar (c : Char) : List Char :=
  let n := c.toNat
  let plain := if 0xFF01 ≤ n && n ≤ 0xFF5E then Char.ofNat (n - 0xFEE0) else c
  if n = 0x3002 || n = 0xFF61 then ['.']
  else if n = 0xAD || n = 0x200B then []
  else Text.lowerChar plain

/-- A name in ASCII. -/
def asciiName (name : List Char) : List Char :=
  ['.'].intercalate ((splitOn ['.'] (name.flatMap nameChar)).map Label.toAscii)

/-- The host between brackets. -/
def bracketed? (s : List Char) : Option (List Char) :=
  match s with
  | '[' :: r =>
    match r.reverse with
    | ']' :: inside =>
      (sixteenBytes? inside.reverse).map fun p => '[' :: sixteenBytesText p ++ [']']
    | _             => none
  | _ => none

/-- The host of an address of a special scheme, as it is written. -/
def host? (s : List Char) : Option (List Char) :=
  if s.head? = some '[' then bracketed? s
  else
    match Text.percentDecoded? (String.ofList s) with
    | none      => none
    | some name =>
      let name := asciiName name.toList
      if name.isEmpty || name.any isForbidden then none
      else if endsInNumber name then (fourBytes? name).map fourBytesText
      else some name

/-- The host of an address of any other scheme, as it is written. -/
def opaqueHost? (s : List Char) : Option (List Char) :=
  if s.head? = some '[' then bracketed? s
  else if s.any fun c => c != '%' && c.toNat != 0x7F && isForbidden c
      && (c.toNat = 0 || 0x20 ≤ c.toNat || c = '\t' || c = '\n' || c = '\r') then none
  else some (encoded [] s)

end Scrape.Address
