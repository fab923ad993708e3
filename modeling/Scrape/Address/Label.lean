import Scrape.Text.Case

/-!
# Address — Label

The labels of host names in ASCII.  A label with other characters is written as `xn--`, its
characters of ASCII, and digits that say where the others go: their code points in ascending order,
each as a difference from the one before, in digits of base 36 whose weights adapt to the
differences so far.
-/

namespace Scrape.Address.Label

/-- The digit of a value below 36: a small letter, or a figure from 26 on. -/
def digit (d : Nat) : Char := if d < 26 then Char.ofNat (0x61 + d) else Char.ofNat (0x30 + d - 26)

/-- The least value of the digit at a place after which more digits follow. -/
def threshold (place bias : Nat) : Nat :=
  if place ≤ bias then 1 else if bias + 26 ≤ place then 26 else place - bias

theorem threshold_pos (place bias : Nat) : 1 ≤ threshold place bias := by
  unfold threshold
  split
  · omega
  · split <;> omega

/-- A difference as digits from a place on. -/
def digitsFrom (bias place n : Nat) : List Char :=
  let t := threshold place bias
  if n < t then [digit n]
  else digit (t + (n - t) % (36 - t)) :: digitsFrom bias (place + 36) ((n - t) / (36 - t))
termination_by n
decreasing_by
  have h := threshold_pos place bias
  calc (n - threshold place bias) / (36 - threshold place bias)
      ≤ n - threshold place bias := Nat.div_le_self _ _
    _ < n := by omega

/-- A difference scaled down, with the places that the scaling adds. -/
def scaled (n places : Nat) : Nat × Nat :=
  if 455 < n then scaled (n / 35) (places + 36) else (n, places)
termination_by n
decreasing_by exact Nat.div_lt_self (by omega) (by omega)

/-- The bias after a difference, of which `count` characters have been written. -/
def adapted (n count : Nat) (isFirst : Bool) : Nat :=
  let n := if isFirst then n / 700 else n / 2
  let (n, places) := scaled (n + n / count) 0
  places + 36 * n / (n + 38)

/-- Where the writing of a label stands: the digits so far in reverse, the difference so far, the
bias, and how many characters have been written. -/
structure Writing where
  digits : List Char
  difference : Nat
  bias : Nat
  count : Nat

/-- One character of the label, while those with a code point are written. -/
def Writing.pass (basics point : Nat) (w : Writing) (c : Char) : Writing :=
  if c.toNat < point then { w with difference := w.difference + 1 }
  else if c.toNat = point then
    { digits := (digitsFrom w.bias 36 w.difference).reverse ++ w.digits
      difference := 0
      bias := adapted w.difference (w.count + 1) (w.count == basics)
      count := w.count + 1 }
  else w

/-- All characters of the label for each of the code points, the next of which is `next`. -/
def Writing.passes (label : List Char) (basics : Nat) : List Nat → Nat → Writing → Writing
  | [],              _,    w => w
  | point :: points, next, w =>
    let w := { w with difference := w.difference + (point - next) * (w.count + 1) }
    let w := label.foldl (Writing.pass basics point) w
    passes label basics points (point + 1) { w with difference := w.difference + 1 }

/-- The label in ASCII. -/
def toAscii (label : List Char) : List Char :=
  if label.all Text.isAscii then label
  else
    let basic := label.filter Text.isAscii
    let points := ((label.filter fun c => !Text.isAscii c).map Char.toNat).mergeSort.eraseDups
    let w := Writing.passes label basic.length points 128 ⟨[], 0, 72, basic.length⟩
    "xn--".toList ++ basic ++ (if basic.isEmpty then [] else ['-']) ++ w.digits.reverse

end Scrape.Address.Label
