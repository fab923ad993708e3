import Mathlib
import Scrape.Script.Operator

/-!
# Script — Word

The operators on bits take numbers for words of 32 bits.  An integer has a word modulo two to the
power 32 (`word`), and each operator on words gives an integer (`BinaryOp.onWords?`).  A number is
brought into 64 bits first, and the low 32 of these are its word, so a number past 64 bits is taken
for the word of the nearest integer within them (`takenFor_clamped`).

For a number that is taken for a word every operator computes on this word (`TakenFor.apply_eq`,
`TakenFor.complement_eq`).

Main statement (`wraps_iff`): of the integers that a number holds exactly, those within 64 bits and
the multiples of two to the power 32 below them wrap, and no others.
-/

namespace Scrape

/-! ### The word of an integer -/

/-- The word of an integer: the integer modulo two to the power 32. -/
def word (n : Int) : BitVec 32 := BitVec.ofInt 32 n

/-- The integer within 64 bits that is nearest to an integer. -/
def clamped (n : Int) : Int := max (-0x8000000000000000) (min 0x7FFFFFFFFFFFFFFF n)

theorem toInt_word (n : Int) : (word n).toInt = n.bmod 0x100000000 := BitVec.toInt_ofInt n

namespace Number

/-- The integer is one that a number holds exactly: the nearest double is the integer itself. -/
def IsExact (n : Int) : Prop := ofInt n = .finite n

instance (n : Int) : Decidable (IsExact n) := inferInstanceAs (Decidable (_ = _))

/-- The operators on bits take the number for the word. -/
def TakenFor (x : Number) (a : BitVec 32) : Prop := x.toInt32 = a.toInt

variable {x y : Number} {a b : BitVec 32} {n m : Int}

/-- A number with an integer value is taken for the word of the nearest integer within 64 bits. -/
theorem takenFor_clamped (hx : x.toRat? = some (n : Rat)) : x.TakenFor (word (clamped n)) := by
  have hsaturate : saturate (-0x8000000000000000) 0x7FFFFFFFFFFFFFFF x = clamped n := by
    cases x with
    | nan | infinite => cases hx
    | negZero =>
      have hzero : n = 0 := Int.cast_eq_zero.mp (Option.some.inj hx).symm
      rw [hzero]
      rfl
    | finite q =>
      have hq : q = n := Option.some.inj hx
      rw [hq, saturate, Rat.num_intCast, Rat.den_intCast, Nat.cast_one, Int.tdiv_one]
      rfl
  rw [TakenFor, toInt32, if_pos (by rw [isFinite, hx]; rfl), hsaturate, toInt_word]

/-! ### The operators on a word -/

theorem TakenFor.toUInt32_eq (h : x.TakenFor a) : x.toUInt32 = a.toNat := by
  rw [toUInt32, h, BitVec.toInt_eq_toNat_bmod]
  have := a.isLt
  rw [show (0x100000000 : Int) = ((2 ^ 32 : Nat) : Int) from rfl, Int.bmod_emod]
  omega

theorem TakenFor.bitwise_eq {f : UInt32 → UInt32 → UInt32} {g : BitVec 32 → BitVec 32 → BitVec 32}
    (hfg : ∀ a b, (f (.ofBitVec a) (.ofBitVec b)).toBitVec = g a b)
    (hx : x.TakenFor a) (hy : y.TakenFor b) : bitwise f x y = ofInt (g a b).toInt := by
  have hword (c : BitVec 32) : c.toNat.toUInt32 = .ofBitVec c := UInt32.ofNat_toNat (x := .ofBitVec c)
  rw [bitwise, hx.toUInt32_eq, hy.toUInt32_eq, hword, hword, BitVec.toInt_eq_toNat_bmod, ← hfg]
  rfl

theorem TakenFor.bitAnd_eq (hx : x.TakenFor a) (hy : y.TakenFor b) :
    x.bitAnd y = ofInt (a &&& b).toInt :=
  hx.bitwise_eq (fun _ _ => rfl) hy

theorem TakenFor.bitOr_eq (hx : x.TakenFor a) (hy : y.TakenFor b) :
    x.bitOr y = ofInt (a ||| b).toInt :=
  hx.bitwise_eq (fun _ _ => rfl) hy

theorem TakenFor.bitXor_eq (hx : x.TakenFor a) (hy : y.TakenFor b) :
    x.bitXor y = ofInt (a ^^^ b).toInt :=
  hx.bitwise_eq (fun _ _ => rfl) hy

theorem TakenFor.bitNot_eq (h : x.TakenFor a) : x.bitNot = ofInt (~~~a).toInt := by
  have hnot : (~~~a).toInt = -1 - a.toInt := by
    have := a.isLt
    rw [BitVec.toInt_eq_toNat_cond, BitVec.toInt_eq_toNat_cond, BitVec.toNat_not]
    omega
  rw [bitNot, h, hnot]

theorem TakenFor.shiftCount_eq (h : y.TakenFor b) : shiftCount y = b.toNat % 32 := by
  rw [shiftCount, h.toUInt32_eq]

theorem TakenFor.shiftLeft_eq (hx : x.TakenFor a) (hy : y.TakenFor b) :
    x.shiftLeft y = ofInt (a <<< (b.toNat % 32)).toInt := by
  rw [shiftLeft, hx, hy.shiftCount_eq, BitVec.toInt_shiftLeft, Nat.shiftLeft_eq, Nat.cast_mul,
    BitVec.toInt_eq_toNat_bmod, Int.bmod_mul_bmod]
  rfl

theorem TakenFor.shiftRight_eq (hx : x.TakenFor a) (hy : y.TakenFor b) :
    x.shiftRight y = ofInt (a.sshiftRight (b.toNat % 32)).toInt := by
  rw [shiftRight, hx, hy.shiftCount_eq, BitVec.toInt_sshiftRight, Int.shiftRight_eq_div_pow]
  rfl

theorem ofInt_natCast (i : Nat) : ofInt (i : Int) = ofNat i := by
  rw [ofInt, decide_eq_false (by omega), Int.natAbs_natCast, ofNat]

theorem TakenFor.shiftRightZero_eq (hx : x.TakenFor a) (hy : y.TakenFor b) :
    x.shiftRightZero y = ofInt (a >>> (b.toNat % 32)).toNat := by
  rw [shiftRightZero, hx.toUInt32_eq, hy.shiftCount_eq, BitVec.toNat_ushiftRight,
    Nat.shiftRight_eq_div_pow, ofInt_natCast]
  rfl

/-! ### Integers past 64 bits -/

/-- Past 64 bits a double is counted in units of two to the power 11 at least. -/
theorem le_unitExponent {num : Nat} (h : 0x8000000000000000 ≤ num) : 11 ≤ unitExponent num 1 := by
  have hlog : 63 ≤ num.log2 := (Nat.le_log2 (by omega)).mpr h
  have hfits : 1 <<< num.log2 ≤ num := by
    rw [Nat.one_shiftLeft]
    exact Nat.log2_self_le (by omega)
  have hfloor : log2Floor num 1 = num.log2 := by
    have hone : Nat.log2 1 = 0 := by decide
    simp [log2Floor, hone, hfits]
  rw [unitExponent, hfloor]
  omega

/-- A number holds an integer past 64 bits only if it is a multiple of two to the power 11. -/
theorem dvd_of_isExact (hn : IsExact n) (hlarge : 0x8000000000000000 ≤ n) : 0x800 ∣ n := by
  have hunit : 11 ≤ unitExponent n.natAbs 1 := le_unitExponent (by omega)
  have hpos : 0 ≤ unitExponent n.natAbs 1 := by omega
  have hsign : decide (n < 0) = false := decide_eq_false (by omega)
  rw [IsExact, ofInt, ofMagnitude, hsign, if_neg (by omega), if_neg (by simp [hiddenBit]; omega)]
    at hn
  simp only [nearest, if_pos hpos, Bool.false_eq_true, if_false] at hn
  generalize unitExponent n.natAbs 1 = unit at hn hunit
  generalize halfEven _ _ = count at hn
  split at hn
  · -- a count of zero is no large integer
    have hzero : (n : Rat) = 0 := (Number.finite.inj hn).symm
    have : n = 0 := Int.cast_eq_zero.mp hzero
    omega
  split at hn
  · cases hn
  have hcount : ((count <<< unit.toNat : Nat) : Int) = n :=
    Rat.intCast_inj.mp ((Int.cast_natCast _).trans (Number.finite.inj hn))
  rw [← hcount, Nat.shiftLeft_eq, Nat.cast_mul]
  refine Dvd.dvd.mul_left ?_ _
  exact_mod_cast Nat.pow_dvd_pow 2 (show 11 ≤ unit.toNat by omega)

end Number

/-! ### Which integers wrap -/

/-- The integer lies within 64 bits, or below them at a multiple of two to the power 32. -/
def Reaches (n : Int) : Prop :=
  n < 0x8000000000000000 ∧ (-0x8000000000000000 ≤ n ∨ 0x100000000 ∣ n)

theorem word_clamped {n : Int} (h : Reaches n) : word (clamped n) = word n := by
  have hmod : clamped n % ((0x100000000 : Nat) : Int) = n % ((0x100000000 : Nat) : Int) := by
    obtain ⟨hlt, hle | hdvd⟩ := h
    · rw [show clamped n = n by rw [clamped]; omega]
    · rw [clamped]
      omega
  apply BitVec.toInt_inj.mp
  rw [toInt_word, toInt_word, ← Int.emod_bmod, hmod, Int.emod_bmod]

/-- What is held exactly and keeps its word within 64 bits reaches. -/
theorem reaches_of_word_clamped {n : Int} (hn : Number.IsExact n)
    (h : (word (clamped n)).toInt ≡ n [ZMOD 0x100000000]) : Reaches n := by
  have hmod : (0x100000000 : Int) ∣ n - clamped n := by
    refine (Int.modEq_iff_dvd).mp (Int.ModEq.trans ?_ h)
    rw [toInt_word]
    exact (Int.bmod_emod (x := clamped n) (m := 0x100000000)).symm
  rw [clamped] at hmod
  constructor
  · -- past 64 bits the word is that of minus one, and the integer is even
    by_contra hlarge
    have := Number.dvd_of_isExact hn (by omega)
    omega
  · omega

namespace Script

open Number

/-- The operators on words of 32 bits, each with the integer that it gives for two words.  The
distance of a shift is told by the low five bits of the second word. -/
def BinaryOp.onWords? : BinaryOp → Option (BitVec 32 → BitVec 32 → Int)
  | .bitAnd         => some fun a b => (a &&& b).toInt
  | .bitOr          => some fun a b => (a ||| b).toInt
  | .bitXor         => some fun a b => (a ^^^ b).toInt
  | .shiftLeft      => some fun a b => (a <<< (b.toNat % 32)).toInt
  | .shiftRight     => some fun a b => (a.sshiftRight (b.toNat % 32)).toInt
  | .shiftRightZero => some fun a b => (a >>> (b.toNat % 32)).toNat
  | _               => none

/-- Every operator on words computes on the words for which it takes its operands. -/
theorem apply_eq_of_takenFor {op : BinaryOp} {f : BitVec 32 → BitVec 32 → Int} {v w : Value}
    {a b : BitVec 32} (hop : op.onWords? = some f) (hv : v.toNumber.TakenFor a)
    (hw : w.toNumber.TakenFor b) : op.apply v w = .ok (.number (ofInt (f a b))) := by
  cases op with
  | bitAnd =>
    cases hop
    rw [BinaryOp.apply, onNumbers, hv.bitAnd_eq hw]
  | bitOr =>
    cases hop
    rw [BinaryOp.apply, onNumbers, hv.bitOr_eq hw]
  | bitXor =>
    cases hop
    rw [BinaryOp.apply, onNumbers, hv.bitXor_eq hw]
  | shiftLeft =>
    cases hop
    rw [BinaryOp.apply, onNumbers, hv.shiftLeft_eq hw]
  | shiftRight =>
    cases hop
    rw [BinaryOp.apply, onNumbers, hv.shiftRight_eq hw]
  | shiftRightZero =>
    cases hop
    rw [BinaryOp.apply, onNumbers, hv.shiftRightZero_eq hw]
  | _ => cases hop

/-- The integer is taken modulo two to the power 32: a number with this value is taken for the
integer of 32 bits that is congruent to it, and the operators on words compute on its word, with any
other operand that reaches. -/
structure Wraps (n : Int) : Prop where
  toInt32 : ∀ x : Number, x.toRat? = some (n : Rat) →
    -0x80000000 ≤ x.toInt32 ∧ x.toInt32 < 0x80000000 ∧ x.toInt32 ≡ n [ZMOD 0x100000000]
  complement : ∀ v : Value, v.toNumber.toRat? = some (n : Rat) →
    UnaryOp.complement.apply v = .number (ofInt (~~~word n).toInt)
  binary : ∀ op f, BinaryOp.onWords? op = some f → ∀ (v w : Value) (m : Int), Reaches m →
    v.toNumber.toRat? = some (n : Rat) → w.toNumber.toRat? = some (m : Rat) →
    op.apply v w = .ok (.number (ofInt (f (word n) (word m)))) ∧
      op.apply w v = .ok (.number (ofInt (f (word m) (word n))))

theorem takenFor_word {x : Number} {n : Int} (hn : Reaches n) (hx : x.toRat? = some (n : Rat)) :
    x.TakenFor (word n) :=
  word_clamped hn ▸ takenFor_clamped hx

/-- An integer that reaches wraps. -/
theorem wraps_of_reaches {n : Int} (hn : Reaches n) : Wraps n where
  toInt32 x hx := by
    have htaken : x.toInt32 = n.bmod 0x100000000 := (takenFor_word hn hx).trans (toInt_word n)
    rw [htaken]
    refine ⟨Int.le_bmod (by decide), Int.bmod_lt (by decide), ?_⟩
    exact Int.bmod_emod (x := n) (m := 0x100000000)
  complement v hv := congrArg Value.number (takenFor_word hn hv).bitNot_eq
  binary op f hop v w m hm hv hw :=
    ⟨apply_eq_of_takenFor hop (takenFor_word hn hv) (takenFor_word hm hw),
      apply_eq_of_takenFor hop (takenFor_word hm hw) (takenFor_word hn hv)⟩

/-- **Which integers wrap.**  An integer that a number holds exactly is taken modulo two to the power
32, by the conversion and by all operators on words, exactly if it lies within 64 bits, or below them
at a multiple of two to the power 32. -/
theorem wraps_iff {n : Int} (hn : IsExact n) : Wraps n ↔ Reaches n := by
  refine ⟨fun h => ?_, wraps_of_reaches⟩
  have hvalue : (Number.finite n).toRat? = some (n : Rat) := rfl
  obtain ⟨-, -, hmod⟩ := h.toInt32 (.finite n) hvalue
  rw [takenFor_clamped hvalue] at hmod
  exact reaches_of_word_clamped hn hmod

/-- Minus two to the power 64 lies below 64 bits, at a multiple of two to the power 32, and wraps. -/
theorem wraps_belowInt64 : IsExact (-0x10000000000000000) ∧ Wraps (-0x10000000000000000) := by
  have hn : IsExact (-0x10000000000000000) := by decide
  exact ⟨hn, (wraps_iff hn).mpr ⟨by decide, .inr (by decide)⟩⟩

/-- Two to the power 63 is held exactly and does not wrap: the operator for either bit makes minus one
of it and zero, although its word is zero. -/
theorem pastInt64_misread :
    IsExact 0x8000000000000000 ∧ ¬ Wraps 0x8000000000000000 ∧
    word 0x8000000000000000 = 0 ∧
    BinaryOp.bitOr.apply (.number (.finite 0x8000000000000000)) (.number (.finite 0)) =
      .ok (.number (.finite (-1))) := by
  have hexact : IsExact 0x8000000000000000 := by decide
  refine ⟨hexact, fun h => ?_, by decide, ?_⟩
  · obtain ⟨-, -, hmod⟩ := h.toInt32 (.finite 0x8000000000000000) rfl
    exact absurd hmod (by decide)
  · have hop : BinaryOp.onWords? .bitOr = some fun a b => (a ||| b).toInt := rfl
    have hleft : (Value.number (.finite 0x8000000000000000)).toNumber.TakenFor
        (word (clamped 0x8000000000000000)) := takenFor_clamped rfl
    have hright : (Value.number (.finite 0)).toNumber.TakenFor (word (clamped 0)) :=
      takenFor_clamped rfl
    have hones : (word (clamped 0x8000000000000000) ||| word (clamped 0)).toInt = -1 := by decide
    rw [apply_eq_of_takenFor hop hleft hright, hones]
    rfl

end Script
end Scrape
