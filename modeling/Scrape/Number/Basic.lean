/-!
# Number — Basic

The numbers of double precision: not a number, the two infinities, the two zeros, and the rational
numbers that a double holds.  A result is computed exactly, as a rational number, and then rounded
to the nearest double, ties to the even significand (`Number.ofRat`); so each operation is defined
by what it means and not by how a processor does it.
-/

namespace Scrape

/-- A number of double precision. -/
inductive Number where
  /-- What has no numeric value. -/
  | nan
  /-- The two infinities. -/
  | infinite (negative : Bool)
  /-- The zero that is the limit of negative numbers. -/
  | negZero
  /-- A rational number; zero is the positive one. -/
  | finite (value : Rat)
  deriving DecidableEq

instance : Inhabited Number := ⟨.finite 0⟩

namespace Number

/-- The least exponent of the unit of a double. -/
def minExponent : Int := -1074

/-- The weight of the first bit of a significand, two to the power 52. -/
def hiddenBit : Nat := 0x10000000000000

/-- Two to the power `e`. -/
def pow2 (e : Int) : Rat :=
  if 0 ≤ e then (Nat.pow 2 e.toNat : Nat) else mkRat 1 (Nat.pow 2 (-e).toNat)

/-- The integer nearest to the fraction `num / den`; of two that are equally near, the even one. -/
def halfEven (num den : Nat) : Nat :=
  let q := num / den
  let r := 2 * (num % den)
  if r < den then q else if den < r then q + 1 else if q % 2 = 0 then q else q + 1

/-- The exponent `l` with `2 ^ l ≤ num / den < 2 ^ (l + 1)`, for a positive fraction. -/
def log2Floor (num den : Nat) : Int :=
  let e : Int := (num.log2 : Int) - den.log2
  let fits := if 0 ≤ e then den <<< e.toNat ≤ num else den ≤ num <<< (-e).toNat
  if fits then e else e - 1

/-- The unit in which a double next to `num / den` is counted, as an exponent of two. -/
def unitExponent (num den : Nat) : Int := max (log2Floor num den - 52) minExponent

/-- The double nearest to the positive fraction `num / den`, as a count of units and the exponent
of the unit. -/
def nearest (num den : Nat) : Nat × Int :=
  let u := unitExponent num den
  if 0 ≤ u then (halfEven num (den <<< u.toNat), u) else (halfEven (num <<< (-u).toNat) den, u)

/-- The number of a sign and a magnitude `num / den`, rounded.  A magnitude that rounds to zero
keeps the sign, one past the largest double is an infinity. -/
def ofMagnitude (negative : Bool) (num den : Nat) : Number :=
  if num = 0 then if negative then negZero else finite 0
  else if den = 1 ∧ num < 2 * hiddenBit then finite (if negative then -(num : Rat) else num)
  else
    let (m, u) := nearest num den
    if m = 0 then if negative then negZero else finite 0
    else if 1024 ≤ (m.log2 : Int) + u then infinite negative
    else
      let magnitude : Rat :=
        if 0 ≤ u then ((m <<< u.toNat : Nat) : Rat) else mkRat m (Nat.pow 2 (-u).toNat)
      finite (if negative then -magnitude else magnitude)

/-- The double nearest to a rational number. -/
def ofRat (q : Rat) : Number := ofMagnitude (q.num < 0) q.num.natAbs q.den

/-- The double nearest to an integer. -/
def ofInt (i : Int) : Number := ofMagnitude (i < 0) i.natAbs 1

/-- The double nearest to a natural number. -/
def ofNat (n : Nat) : Number := ofMagnitude false n 1

/-- The rational value of a number that has one. -/
def toRat? : Number → Option Rat
  | nan | infinite _ => none
  | negZero          => some 0
  | finite q         => some q

/-- Whether the number is not a number. -/
def isNaN : Number → Bool
  | nan => true
  | _   => false

/-- Whether the number has a rational value. -/
def isFinite (x : Number) : Bool := x.toRat?.isSome

/-- Whether the number is one of the zeros. -/
def isZero : Number → Bool
  | negZero  => true
  | finite q => q == 0
  | _        => false

/-- Whether the number is an integer. -/
def isIntegral (x : Number) : Bool :=
  match x.toRat? with
  | some q => q.den == 1
  | none   => false

/-- Whether the sign is negative; not a number has none. -/
def isNegative : Number → Bool
  | nan        => false
  | infinite s => s
  | negZero    => true
  | finite q   => q.num < 0

/-- The order of two numbers, where there is one: the zeros are equal, and not a number has no
order with anything. -/
def compare? : Number → Number → Option Ordering
  | nan, _ | _, nan => none
  | infinite s, infinite t =>
    some (if s == t then .eq else if s then .lt else .gt)
  | infinite s, _ => some (if s then .lt else .gt)
  | _, infinite t => some (if t then .gt else .lt)
  | x, y =>
    let p := x.toRat?.getD 0
    let q := y.toRat?.getD 0
    some (if p < q then .lt else if p = q then .eq else .gt)

/-- Equality of numbers as values: the zeros are equal and not a number equals nothing. -/
def equals (x y : Number) : Bool := compare? x y == some .eq

/-- Whether `x` lies below `y`. -/
def lt (x y : Number) : Bool := compare? x y == some .lt

/-- The integer part, toward zero, of a number that has one. -/
def truncated? (x : Number) : Option Int := x.toRat?.map fun q => q.num.tdiv q.den

/-- The integer part brought into the range from `low` to `high`; zero for not a number. -/
def saturate (low high : Int) (x : Number) : Int :=
  match x with
  | nan        => 0
  | infinite s => if s then low else high
  | negZero    => max low (min high 0)
  | finite q   => max low (min high (q.num.tdiv q.den))

/-- The integer part as a count, at most what 64 bits hold. -/
def toCount (x : Number) : Nat := (saturate 0 0xFFFFFFFFFFFFFFFF x).toNat

end Number
end Scrape
