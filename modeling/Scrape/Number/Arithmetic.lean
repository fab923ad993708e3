import Scrape.Number.Basic

/-!
# Number — Arithmetic

The operations of double precision arithmetic: each is the exact operation on rational values,
rounded, with the customary results where an operand has no rational value and the customary sign
of zero.
-/

namespace Scrape.Number

/-- The opposite number. -/
def neg : Number → Number
  | nan        => nan
  | infinite s => infinite (!s)
  | negZero    => finite 0
  | finite q   => if q = 0 then negZero else finite (-q)

/-- The number without its sign. -/
def abs (x : Number) : Number := if x.isNegative then x.neg else x

/-- The sum. -/
def add : Number → Number → Number
  | nan, _ | _, nan => nan
  | infinite s, infinite t => if s == t then infinite s else nan
  | infinite s, _ => infinite s
  | _, infinite t => infinite t
  | negZero, negZero => negZero
  | x, y => ofRat (x.toRat?.getD 0 + y.toRat?.getD 0)

/-- The difference. -/
def sub (x y : Number) : Number := add x y.neg

/-- A rational result with the sign `negative`, rounded. -/
def signed (negative : Bool) (q : Rat) : Number := ofMagnitude negative q.num.natAbs q.den

/-- The product. -/
def mul (x y : Number) : Number :=
  let s := x.isNegative != y.isNegative
  match x.toRat?, y.toRat? with
  | some p, some q => signed s (p * q)
  | _, _ => if x.isNaN || y.isNaN || x.isZero || y.isZero then nan else infinite s

/-- The quotient. -/
def div (x y : Number) : Number :=
  let s := x.isNegative != y.isNegative
  match x.toRat?, y.toRat? with
  | some p, some q => if q = 0 then if p = 0 then nan else infinite s else signed s (p / q)
  | some _, none => if y.isNaN then nan else signed s 0
  | none, some _ => if x.isNaN then nan else infinite s
  | none, none => nan

/-- The remainder of the division toward zero; it has the sign of the dividend. -/
def mod (x y : Number) : Number :=
  match x.toRat?, y.toRat? with
  | some p, some q =>
    if q = 0 then nan else signed x.isNegative (p - q * ((p / q).num.tdiv (p / q).den : Int))
  | some _, none => if y.isNaN then nan else x
  | none, _ => nan

/-- A number brought to an integer by `f`, with the sign of zero kept. -/
def toIntegral (f : Rat → Int) : Number → Number
  | finite q => if q.num < 0 ∧ f q = 0 then negZero else finite (f q)
  | x        => x

/-- The greatest integer that is not above. -/
def floor : Number → Number := toIntegral Rat.floor

/-- The least integer that is not below. -/
def ceil : Number → Number := toIntegral Rat.ceil

/-- The integer part. -/
def trunc : Number → Number := toIntegral fun q => q.num.tdiv q.den

/-- The nearest integer, computed as the floor of the number and a half. -/
def round (x : Number) : Number := (x.add (finite (1 / 2))).floor

/-- Minus one, a zero or one, by the sign. -/
def sign (x : Number) : Number :=
  if x.isNaN || x.isZero then x else if x.isNegative then finite (-1) else finite 1

/-- The greater of two numbers, not a number if one of them is not. -/
def max (x y : Number) : Number :=
  if x.isNaN || y.isNaN then nan else if x.lt y then y else x

/-- The smaller of two numbers, not a number if one of them is not. -/
def min (x y : Number) : Number :=
  if x.isNaN || y.isNaN then nan else if y.lt x then y else x

/-! ### The machine's own doubles -/

/-- The weight of the sign in the bits of a double, two to the power 63. -/
def signBit : Nat := 0x8000000000000000

/-- The bits of the number in the binary format. -/
def toBits : Number → UInt64
  | nan        => 0x7FF8000000000000
  | infinite s => if s then 0xFFF0000000000000 else 0x7FF0000000000000
  | negZero    => 0x8000000000000000
  | finite q   =>
    if q = 0 then 0 else
      let (m, u) := nearest q.num.natAbs q.den
      let body :=
        if m < hiddenBit then m else ((u - minExponent).toNat + 1) * hiddenBit + (m - hiddenBit)
      (body + if q.num < 0 then signBit else 0).toUInt64

/-- The number of which the bits are given. -/
def ofBits (bits : UInt64) : Number :=
  let b : Nat := bits.toNat
  let negative := signBit ≤ b
  let e : Nat := b / hiddenBit % 0x800
  let f : Nat := b % hiddenBit
  if e = 2047 then if f = 0 then infinite negative else nan
  else
    let m : Nat := if e = 0 then f else f + hiddenBit
    let q := (m : Rat) * pow2 (minExponent + (e - 1 : Nat))
    if m = 0 then if negative then negZero else finite 0 else finite (if negative then -q else q)

/-- The power, by the machine's function. -/
def pow (x y : Number) : Number :=
  ofBits (Float.pow (Float.ofBits x.toBits) (Float.ofBits y.toBits)).toBits

/-- The square root, by the machine's function. -/
def sqrt (x : Number) : Number := ofBits (Float.sqrt (Float.ofBits x.toBits)).toBits

/-! ### Integers of 32 bits -/

/-- The signed 32-bit integer a bit operation takes for the number: the integer part, brought into
64 bits, and of that the low 32. -/
def toInt32 (x : Number) : Int :=
  if x.isFinite then (saturate (-0x8000000000000000) 0x7FFFFFFFFFFFFFFF x).bmod 0x100000000 else 0

/-- The unsigned 32-bit integer with the same bits. -/
def toUInt32 (x : Number) : Nat := (x.toInt32 % 0x100000000).toNat

/-- A bit operation on the bits of two signed 32-bit integers. -/
def bitwise (f : UInt32 → UInt32 → UInt32) (x y : Number) : Number :=
  ofInt (Int.bmod (f x.toUInt32.toUInt32 y.toUInt32.toUInt32).toNat 0x100000000)

/-- Both bits. -/
def bitAnd : Number → Number → Number := bitwise (· &&& ·)

/-- Either bit. -/
def bitOr : Number → Number → Number := bitwise (· ||| ·)

/-- One of the bits. -/
def bitXor : Number → Number → Number := bitwise (· ^^^ ·)

/-- All bits turned. -/
def bitNot (x : Number) : Number := ofInt (-1 - x.toInt32)

/-- The distance of a shift: the low five bits. -/
def shiftCount (y : Number) : Nat := y.toUInt32 % 32

/-- The bits shifted up, the upper ones lost. -/
def shiftLeft (x y : Number) : Number :=
  ofInt ((x.toInt32 * (Nat.pow 2 (shiftCount y) : Nat)).bmod 0x100000000)

/-- The bits shifted down, the sign kept. -/
def shiftRight (x y : Number) : Number := ofInt (x.toInt32 / (Nat.pow 2 (shiftCount y) : Nat))

/-- The bits shifted down, zeros coming in. -/
def shiftRightZero (x y : Number) : Number := ofNat (x.toUInt32 / Nat.pow 2 (shiftCount y))

end Scrape.Number
