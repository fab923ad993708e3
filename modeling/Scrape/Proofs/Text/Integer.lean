import Scrape.Text.Blank
import Scrape.Text.Integer

/-!
# Text — Integer, its laws

Integers of 64 bits in decimal.  A numeral is written with digits alone, after a minus sign or without
one; reading it gives the integer it is a numeral of (`WritesInteger.readInteger?_eq`), and the
decimal form of an integer is such a numeral (`isNumeral_decimalInt`).  Whatever is read is an integer
of 64 bits (`isInt64_of_readInteger?`).
-/

namespace Scrape.Text

/-! ### Integers of 64 bits -/

/-- Whether the integer is one of 64 bits with a sign. -/
def IsInt64 (i : Int) : Prop := -0x8000000000000000 ≤ i ∧ i < 0x8000000000000000

instance (i : Int) : Decidable (IsInt64 i) := inferInstanceAs (Decidable (_ ∧ _))

/-- The result of a step of arithmetic in 64 bits; nothing if it overflows. -/
def checked? (i : Int) : Option Int := if IsInt64 i then some i else none

theorem checked?_of_isInt64 {i : Int} (h : IsInt64 i) : checked? i = some i := if_pos h

theorem checked?_of_not_isInt64 {i : Int} (h : ¬ IsInt64 i) : checked? i = none := if_neg h

theorem isInt64_of_readInteger? {s : List Char} {i : Int} (h : readInteger? s = some i) : IsInt64 i := by
  unfold readInteger? readSigned? at h
  simpa [IsInt64] using (Option.filter_eq_some_iff.mp h).2

/-! ### Numerals -/

/-- The text is a decimal numeral of the integer. -/
inductive IsNumeral : Int → List Char → Prop where
  /-- Digits. -/
  | plain {digits : List Char} (hne : digits ≠ []) (hdigits : ∀ c ∈ digits, isDigit c = true) :
      IsNumeral (Nat.ofDigitChars 10 digits 0) digits
  /-- Digits after a minus sign. -/
  | minus {digits : List Char} (hne : digits ≠ []) (hdigits : ∀ c ∈ digits, isDigit c = true) :
      IsNumeral (-(Nat.ofDigitChars 10 digits 0 : Nat)) ('-' :: digits)

/-- The text is written for the integer: a decimal numeral of an integer of 64 bits. -/
structure WritesInteger (i : Int) (s : List Char) : Prop where
  isInt64 : IsInt64 i
  isNumeral : IsNumeral i s

variable {c : Char} {s : List Char} {i : Int}

theorem isDigit_eq (c : Char) : isDigit c = c.isDigit := by
  simp [isDigit, Char.isDigit, Char.le_def]

theorem isBlank_of_isDigit (h : isDigit c = true) : isBlank c = false := by
  have := Char.isDigit_iff_toNat.mp ((isDigit_eq c).symm.trans h)
  simp at this
  simp [isBlank]
  omega

theorem digitValue?_of_isDigit (h : isDigit c = true) : digitValue? 10 c = some (c.toNat - 48) := by
  have hrange : c.toNat - 48 < 10 := by
    have := Char.isDigit_iff_toNat.mp ((isDigit_eq c).symm.trans h)
    simp at this
    omega
  unfold isDigit at h
  simp [digitValue?, h, hrange]

theorem digitsValue?_of_digits (h : ∀ c ∈ s, isDigit c = true) (acc : Nat) :
    digitsValue? 10 acc s = some (Nat.ofDigitChars 10 s acc) := by
  induction s generalizing acc with
  | nil => rfl
  | cons c s ih =>
    rw [digitsValue?, digitValue?_of_isDigit (h c List.mem_cons_self), Nat.ofDigitChars_cons,
      Nat.mul_comm]
    exact ih (fun d hd => h d (List.mem_cons_of_mem c hd)) _

theorem readNat?_of_digits (hne : s ≠ []) (h : ∀ c ∈ s, isDigit c = true) :
    readNat? 10 s = some (Nat.ofDigitChars 10 s 0) := by
  rw [readNat?, if_neg (by simpa using hne), digitsValue?_of_digits h]

/-- Digits are read as a count if its value is one of 64 bits. -/
theorem readCount?_of_digits (hne : s ≠ []) (h : ∀ c ∈ s, isDigit c = true)
    (hlt : Nat.ofDigitChars 10 s 0 < 0x10000000000000000) :
    readCount? s = some (Nat.ofDigitChars 10 s 0) := by
  refine Option.filter_eq_some_iff.mpr ⟨?_, decide_eq_true hlt⟩
  split
  · exact absurd (h '+' List.mem_cons_self) (by decide)
  · exact readNat?_of_digits hne h

/-- **What is written for an integer** is read back as this integer. -/
theorem WritesInteger.readInteger?_eq (h : WritesInteger i s) : readInteger? s = some i := by
  unfold readInteger? readSigned?
  refine Option.filter_eq_some_iff.mpr ⟨?_, by simpa [IsInt64] using h.isInt64⟩
  cases h.isNumeral with
  | plain hne hdigits =>
    obtain ⟨c, r, rfl⟩ := List.exists_cons_of_ne_nil hne
    have hread := readNat?_of_digits hne hdigits
    have hc := hdigits c List.mem_cons_self
    -- a digit is no sign
    split
    · next h => obtain ⟨rfl, -⟩ := List.cons.inj h; exact absurd hc (by decide)
    · next h => obtain ⟨rfl, -⟩ := List.cons.inj h; exact absurd hc (by decide)
    · rw [hread]; rfl
  | minus hne hdigits => simp [readNat?_of_digits hne hdigits]

/-- **The decimal form** of an integer is a numeral of it. -/
theorem isNumeral_decimalInt (i : Int) : IsNumeral i (decimalInt i) := by
  have hne : decimal i.natAbs ≠ [] := Nat.toDigits_ne_nil
  have hdigits : ∀ c ∈ decimal i.natAbs, isDigit c = true := fun c hc => by
    rw [isDigit_eq]
    exact Nat.isDigit_of_mem_toDigits (by decide) (by decide) hc
  have hvalue : Nat.ofDigitChars 10 (decimal i.natAbs) 0 = i.natAbs :=
    Nat.ofDigitChars_ten_toDigits
  rw [decimalInt]
  split
  · next hneg =>
    have h := IsNumeral.minus hne hdigits
    rwa [hvalue, show -(i.natAbs : Int) = i by omega] at h
  · next hpos =>
    have h := IsNumeral.plain hne hdigits
    rwa [hvalue, show (i.natAbs : Int) = i by omega] at h

theorem writesInteger_decimalInt (h : IsInt64 i) : WritesInteger i (decimalInt i) :=
  ⟨h, isNumeral_decimalInt i⟩

/-! ### What is read in a radix -/

theorem isSome_digitsValue?_iff {radix acc : Nat} :
    (digitsValue? radix acc s).isSome = true ↔ ∀ c ∈ s, (digitValue? radix c).isSome = true := by
  induction s generalizing acc with
  | nil => simp [digitsValue?]
  | cons c s ih =>
    rw [digitsValue?, List.forall_mem_cons]
    cases hc : digitValue? radix c with
    | none => simp
    | some d => simpa using ih

/-- Digits are read in a radix, if there is one or more, and nothing else is. -/
theorem isSome_readNat?_iff {radix : Nat} : (readNat? radix s).isSome = true ↔
    s ≠ [] ∧ ∀ c ∈ s, (digitValue? radix c).isSome = true := by
  rw [readNat?]
  split
  · next hempty => simp [List.isEmpty_iff.mp hempty]
  · next hne =>
    rw [isSome_digitsValue?_iff]
    exact (and_iff_right (by simpa using hne)).symm

theorem le_iff_toNat {a b : Char} : a ≤ b ↔ a.toNat ≤ b.toNat := Iff.rfl

/-- The digits of a radix are the decimal digits and the letters of both cases, up to the radix. -/
theorem isSome_digitValue?_iff {radix : Nat} : (digitValue? radix c).isSome = true ↔
    (48 ≤ c.toNat ∧ c.toNat ≤ 57 ∧ c.toNat < radix + 48) ∨
    (97 ≤ c.toNat ∧ c.toNat ≤ 122 ∧ c.toNat < radix + 87) ∨
    (65 ≤ c.toNat ∧ c.toNat ≤ 90 ∧ c.toNat < radix + 55) := by
  have hsome (n : Nat) : (if n < radix then some n else none).isSome = true ↔ n < radix := by
    by_cases h : n < radix <;> simp [h]
  simp only [digitValue?, Bool.and_eq_true, decide_eq_true_eq, le_iff_toNat, hsome]
  simp only [Char.reduceToNat]
  split
  · omega
  split
  · omega
  split <;> omega

theorem isSome_digitValue?_ten_iff : (digitValue? 10 c).isSome = true ↔ isDigit c = true := by
  simp only [isSome_digitValue?_iff, isDigit, Bool.and_eq_true, decide_eq_true_eq, le_iff_toNat,
    Char.reduceToNat]
  omega

theorem isDigit_of_readNat? {n : Nat} (h : readNat? 10 s = some n) : ∀ c ∈ s, isDigit c = true := by
  intro c hc
  obtain ⟨-, hdigits⟩ := isSome_readNat?_iff.mp (Option.isSome_of_eq_some h)
  exact isSome_digitValue?_ten_iff.mp (hdigits c hc)

/-- The integer if it is one of 64 bits. -/
def within64? (o : Option Int) : Option Int :=
  o.filter fun i => -0x8000000000000000 ≤ i && i < 0x8000000000000000

theorem isSome_within64?_iff {o : Option Int} :
    (within64? o).isSome = true ↔ ∃ i, o = some i ∧ IsInt64 i := by
  cases o with
  | none => simp [within64?]
  | some i =>
    rw [within64?, Option.isSome_filter, Option.any_some, Bool.and_eq_true, decide_eq_true_eq,
      decide_eq_true_eq]
    constructor
    · intro h
      exact ⟨i, rfl, h⟩
    · rintro ⟨j, hj, h⟩
      exact Option.some.inj hj ▸ h

theorem isSome_within64?_ofNat_iff {o : Option Nat} :
    (within64? (o.map Int.ofNat)).isSome = true ↔ ∃ n, o = some n ∧ n < 0x8000000000000000 := by
  rw [isSome_within64?_iff]
  constructor
  · rintro ⟨i, hi, hrange⟩
    obtain ⟨n, rfl, rfl⟩ := Option.map_eq_some_iff.mp hi
    unfold IsInt64 at hrange
    exact ⟨n, rfl, by simp at hrange; omega⟩
  · rintro ⟨n, rfl, hlt⟩
    refine ⟨n, rfl, ?_⟩
    unfold IsInt64
    omega

theorem isSome_within64?_neg_iff {o : Option Nat} :
    (within64? (o.map fun n => -(n : Int))).isSome = true ↔
      ∃ n, o = some n ∧ n ≤ 0x8000000000000000 := by
  rw [isSome_within64?_iff]
  cases o with
  | none => simp
  | some n =>
    constructor
    · rintro ⟨i, hi, hrange⟩
      obtain rfl : -(n : Int) = i := Option.some.inj hi
      unfold IsInt64 at hrange
      exact ⟨n, rfl, by omega⟩
    · rintro ⟨m, hm, hle⟩
      obtain rfl : n = m := Option.some.inj hm
      refine ⟨-(n : Int), rfl, ?_⟩
      unfold IsInt64
      omega

/-- Digits after a minus sign are read if the integer is one of 64 bits. -/
theorem isSome_readSigned?_minus_iff {radix : Nat} :
    (readSigned? radix ('-' :: s)).isSome = true ↔
      ∃ n, readNat? radix s = some n ∧ n ≤ 0x8000000000000000 :=
  isSome_within64?_neg_iff

/-- Digits after a plus sign are read if the integer is one of 64 bits. -/
theorem isSome_readSigned?_plus_iff {radix : Nat} :
    (readSigned? radix ('+' :: s)).isSome = true ↔
      ∃ n, readNat? radix s = some n ∧ n < 0x8000000000000000 :=
  isSome_within64?_ofNat_iff

/-- Without a sign digits are read if the integer is one of 64 bits. -/
theorem isSome_readSigned?_iff {radix : Nat} (hminus : ∀ t, s ≠ '-' :: t)
    (hplus : ∀ t, s ≠ '+' :: t) : (readSigned? radix s).isSome = true ↔
      ∃ n, readNat? radix s = some n ∧ n < 0x8000000000000000 := by
  unfold readSigned?
  split
  · exact absurd rfl (hminus _)
  · exact absurd rfl (hplus _)
  · exact isSome_within64?_ofNat_iff

namespace IsNumeral

theorem ne_nil (h : IsNumeral i s) : s ≠ [] := by
  cases h with
  | plain hne _ => exact hne
  | minus _ _ => exact List.cons_ne_nil _ _

/-- Nothing but digits and a minus sign is written in a numeral. -/
theorem isDigit_or_minus (h : IsNumeral i s) : ∀ c ∈ s, isDigit c = true ∨ c = '-' := by
  intro c hc
  cases h with
  | plain _ hdigits => exact .inl (hdigits c hc)
  | minus _ hdigits => exact (List.mem_cons.mp hc).symm.imp_left (hdigits c)

/-- A numeral ends in a digit. -/
theorem isDigit_getLast (h : IsNumeral i s) : isDigit (s.getLast h.ne_nil) = true := by
  cases h with
  | plain hne hdigits => exact hdigits _ (List.getLast_mem hne)
  | minus hne hdigits =>
    rw [List.getLast_cons hne]
    exact hdigits _ (List.getLast_mem hne)

theorem not_mem (h : IsNumeral i s) (hdigit : isDigit c = false) (hminus : c ≠ '-') : c ∉ s := by
  intro hmem
  rcases h.isDigit_or_minus c hmem with hc | rfl
  · rw [hc] at hdigit
    cases hdigit
  · exact hminus rfl

/-- No blank is written in a numeral. -/
theorem isBlank_eq_false (h : IsNumeral i s) : ∀ c ∈ s, isBlank c = false := by
  intro c hc
  rcases h.isDigit_or_minus c hc with hc | rfl
  · exact isBlank_of_isDigit hc
  · decide

end IsNumeral

end Scrape.Text
