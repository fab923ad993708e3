import Mathlib.Data.List.TakeWhile
import Mathlib.Tactic.Tauto
import Scrape.Number.Reading
import Scrape.Proofs.Text.Find
import Scrape.Proofs.Text.Integer

/-!
# Number — Numeral

Which texts stand for a number.  `IsNumeric` is the grammar: no text at all, infinity with a sign
or without, a hexadecimal integer of any length without a sign, and a decimal fraction with a sign
or without, a fraction or without and an exponent or without.

Each reader has its part of the grammar: what it reads is in it (soundness) and all that is in it
is read (completeness), from the exponent (`isSome_markedExponent?_iff`) through the fraction
(`isSome_readUnsigned?_iff`) to the sign (`isSome_readDecimal?_iff`).  What follows the mark of a
hexadecimal integer is read as an integer of 64 bits with a sign or without
(`isSome_readSigned?_hex_iff`), which is another language than that of the grammar.

Main statement (`accepts_iff`): the texts that are read as a number are those of the grammar, but
for the hexadecimal integers past 64 bits and for those with a sign after their mark.
-/

namespace Scrape.Number

open Scrape.Text (isDigit digitValue? readNat? readSigned? trim)

/-! ### The grammar -/

/-- Whether the character is a hexadecimal digit. -/
def isHexDigit (c : Char) : Bool :=
  isDigit c || ('a' ≤ c && c ≤ 'f') || ('A' ≤ c && c ≤ 'F')

/-- A sign or none. -/
inductive IsSign : List Char → Prop where
  | none : IsSign []
  | plus : IsSign ['+']
  | minus : IsSign ['-']

/-- The mark of a hexadecimal integer after the zero. -/
inductive IsHexMark : Char → Prop where
  | small : IsHexMark 'x'
  | capital : IsHexMark 'X'

/-- The mark of an exponent. -/
inductive IsExponentMark : Char → Prop where
  | small : IsExponentMark 'e'
  | capital : IsExponentMark 'E'

/-- Decimal digits with a fraction or without, one digit at least. -/
inductive IsSignificand : List Char → Prop where
  | whole {digits : List Char} (hne : digits ≠ []) (hdigits : ∀ c ∈ digits, isDigit c = true) :
      IsSignificand digits
  | point {whole places : List Char} (hwhole : ∀ c ∈ whole, isDigit c = true)
      (hplaces : ∀ c ∈ places, isDigit c = true) (hne : whole ≠ [] ∨ places ≠ []) :
      IsSignificand (whole ++ '.' :: places)

/-- Decimal digits after a sign or none, one digit at least. -/
inductive IsSigned : List Char → Prop where
  | mk {sign digits : List Char} (hsign : IsSign sign) (hne : digits ≠ [])
      (hdigits : ∀ c ∈ digits, isDigit c = true) : IsSigned (sign ++ digits)

/-- An exponent with its mark, or none. -/
inductive IsExponent : List Char → Prop where
  | none : IsExponent []
  | mark {mark : Char} {power : List Char} (hmark : IsExponentMark mark) (hpower : IsSigned power) :
      IsExponent (mark :: power)

/-- A decimal fraction without a sign. -/
inductive IsDecimal : List Char → Prop where
  | mk {significand exponent : List Char} (hsignificand : IsSignificand significand)
      (hexponent : IsExponent exponent) : IsDecimal (significand ++ exponent)

/-- The text stands for a number. -/
inductive IsNumeric : List Char → Prop where
  /-- No text stands for zero. -/
  | empty : IsNumeric []
  /-- Infinity, with a sign or without. -/
  | infinity {sign : List Char} (hsign : IsSign sign) : IsNumeric (sign ++ "Infinity".toList)
  /-- A hexadecimal integer, which has no sign. -/
  | hex {mark : Char} {digits : List Char} (hmark : IsHexMark mark) (hne : digits ≠ [])
      (hdigits : ∀ c ∈ digits, isHexDigit c = true) : IsNumeric ('0' :: mark :: digits)
  /-- A decimal fraction. -/
  | decimal {sign text : List Char} (hsign : IsSign sign) (htext : IsDecimal text) :
      IsNumeric (sign ++ text)

variable {s t r whole places significand exponent : List Char} {negative : Bool} {c : Char}

/-! ### Digits -/

theorem isSome_digitValue?_sixteen_iff :
    (digitValue? 16 c).isSome = true ↔ isHexDigit c = true := by
  simp only [Text.isSome_digitValue?_iff, isHexDigit, isDigit, Bool.or_eq_true, Bool.and_eq_true,
    decide_eq_true_eq, Text.le_iff_toNat, Char.reduceToNat]
  omega

theorem isSome_readNat?_ten_iff :
    (readNat? 10 s).isSome = true ↔ s ≠ [] ∧ ∀ c ∈ s, isDigit c = true := by
  simp only [Text.isSome_readNat?_iff, Text.isSome_digitValue?_ten_iff]

theorem isSome_readNat?_sixteen_iff :
    (readNat? 16 s).isSome = true ↔ s ≠ [] ∧ ∀ c ∈ s, isHexDigit c = true := by
  simp only [Text.isSome_readNat?_iff, isSome_digitValue?_sixteen_iff]

/-! ### Exponents -/

/-- A first character that is a digit is no sign. -/
theorem ne_sign_of_isDigit (h : isDigit c = true) : c ≠ '-' ∧ c ≠ '+' := by
  constructor
  · rintro rfl
    cases h
  · rintro rfl
    cases h

theorem isSome_map_neg (o : Option Nat) : (o.map fun n => -(n : Int)).isSome = o.isSome := by
  cases o <;> rfl

theorem isSome_exponent?_iff : (exponent? s).isSome = true ↔ IsSigned s := by
  constructor
  · intro h
    unfold exponent? at h
    split at h
    · rw [isSome_map_neg] at h
      obtain ⟨hne, hdigits⟩ := isSome_readNat?_ten_iff.mp h
      exact .mk .minus hne hdigits
    · rw [Option.isSome_map] at h
      obtain ⟨hne, hdigits⟩ := isSome_readNat?_ten_iff.mp h
      exact .mk .plus hne hdigits
    · rw [Option.isSome_map] at h
      obtain ⟨hne, hdigits⟩ := isSome_readNat?_ten_iff.mp h
      exact .mk .none hne hdigits
  · rintro ⟨hsign, hne, hdigits⟩
    have hread := isSome_readNat?_ten_iff.mpr ⟨hne, hdigits⟩
    cases hsign with
    | minus => exact (isSome_map_neg _).trans hread
    | plus => exact Option.isSome_map.trans hread
    | none =>
      obtain ⟨c, r, rfl⟩ := List.exists_cons_of_ne_nil hne
      obtain ⟨hminus, hplus⟩ := ne_sign_of_isDigit (hdigits c List.mem_cons_self)
      unfold exponent?
      split
      · next h => exact absurd (List.cons.inj h).1 hminus
      · next h => exact absurd (List.cons.inj h).1 hplus
      · exact Option.isSome_map.trans hread

theorem isSome_markedExponent?_iff : (markedExponent? s).isSome = true ↔ IsExponent s := by
  constructor
  · intro h
    unfold markedExponent? at h
    split at h
    · exact .none
    · exact .mark .small (isSome_exponent?_iff.mp h)
    · exact .mark .capital (isSome_exponent?_iff.mp h)
    · cases h
  · intro h
    cases h with
    | none => rfl
    | mark hmark hpower =>
      have hread := isSome_exponent?_iff.mpr hpower
      cases hmark with
      | small => exact hread
      | capital => exact hread

/-! ### Decimal fractions -/

theorem exists_digits (s : List Char) : ∃ digits r, s = digits ++ r ∧
    (∀ c ∈ digits, isDigit c = true) ∧ ∀ c ∈ r.head?, isDigit c = false := by
  refine ⟨s.takeWhile isDigit, s.dropWhile isDigit, List.takeWhile_append_dropWhile.symm,
    fun c hc => List.mem_takeWhile_imp hc, fun c hc => ?_⟩
  have hnot := List.head?_dropWhile_not isDigit s
  rw [Option.mem_def.mp hc] at hnot
  exact hnot

theorem spanPlaces_point (hplaces : ∀ c ∈ places, isDigit c = true)
    (hr : ∀ c ∈ r.head?, isDigit c = false) : spanPlaces ('.' :: (places ++ r)) = (places, r) :=
  Text.span_append hplaces hr

theorem spanPlaces_of_ne (hr : ∀ c ∈ r.head?, c ≠ '.') : spanPlaces r = ([], r) := by
  unfold spanPlaces
  split
  · exact absurd rfl (hr '.' rfl)
  · rfl

/-- A fraction is read if there is a digit, and what follows the digits is an exponent. -/
theorem isSome_readUnsigned?_of_span {rest : List Char} (hwhole : spanDigits s = (whole, r))
    (hplaces : spanPlaces r = (places, rest)) :
    (readUnsigned? negative s).isSome = true ↔ (whole ≠ [] ∨ places ≠ []) ∧ IsExponent rest := by
  rw [readUnsigned?, hwhole]
  dsimp only
  rw [hplaces]
  dsimp only
  split
  · next hempty =>
    obtain ⟨rfl, rfl⟩ := by simpa using hempty
    simp
  · next hne =>
    rw [Option.isSome_map, isSome_markedExponent?_iff]
    refine (and_iff_right ?_).symm
    by_cases hw : whole = []
    · exact .inr (by simpa [hw] using hne)
    · exact .inl hw

/-- An exponent begins with no digit and with no point. -/
theorem IsExponent.head (h : IsExponent s) : ∀ c ∈ s.head?, isDigit c = false ∧ c ≠ '.' := by
  cases h with
  | none => simp
  | mark hmark hpower =>
    cases hmark with
    | small => simp; decide
    | capital => simp; decide

theorem isSome_readUnsigned?_iff : (readUnsigned? negative s).isSome = true ↔ IsDecimal s := by
  constructor
  · intro h
    obtain ⟨whole, r, rfl, hwhole, hr⟩ := exists_digits s
    have hspan : spanDigits (whole ++ r) = (whole, r) := Text.span_append hwhole hr
    by_cases hpoint : ∃ t, r = '.' :: t
    · obtain ⟨t, rfl⟩ := hpoint
      obtain ⟨places, rest, rfl, hplaces, hrest⟩ := exists_digits t
      obtain ⟨hne, hexponent⟩ :=
        (isSome_readUnsigned?_of_span hspan (spanPlaces_point hplaces hrest)).mp h
      rw [← List.cons_append, ← List.append_assoc]
      exact .mk (.point hwhole hplaces hne) hexponent
    · have hnopoint : ∀ c ∈ r.head?, c ≠ '.' := by
        rintro c hc rfl
        exact hpoint ⟨r.tail, (List.cons_head?_tail hc).symm⟩
      obtain ⟨hne, hexponent⟩ :=
        (isSome_readUnsigned?_of_span hspan (spanPlaces_of_ne hnopoint)).mp h
      exact .mk (.whole (by simpa using hne) hwhole) hexponent
  · rintro @⟨significand, exponent, hsignificand, hexponent⟩
    have hhead := hexponent.head
    cases hsignificand with
    | whole hne hdigits =>
      have hspan := Text.span_append hdigits fun c hc => (hhead c hc).1
      have hplaces := spanPlaces_of_ne fun c hc => (hhead c hc).2
      exact (isSome_readUnsigned?_of_span hspan hplaces).mpr ⟨.inl hne, hexponent⟩
    | @point whole places hwhole hplaces hne =>
      have hspan : spanDigits (whole ++ '.' :: (places ++ exponent)) =
          (whole, '.' :: (places ++ exponent)) := Text.span_append hwhole (by simp; decide)
      have hplaces := spanPlaces_point hplaces fun c hc => (hhead c hc).1
      rw [List.append_assoc, List.cons_append]
      exact (isSome_readUnsigned?_of_span hspan hplaces).mpr ⟨hne, hexponent⟩

/-- A fraction begins with a digit or a point, and so with no sign. -/
theorem IsDecimal.exists_cons (h : IsDecimal s) : ∃ c r, s = c :: r ∧ c ≠ '-' ∧ c ≠ '+' := by
  cases h with
  | mk hsignificand hexponent =>
    cases hsignificand with
    | whole hne hdigits =>
      obtain ⟨c, r, rfl⟩ := List.exists_cons_of_ne_nil hne
      exact ⟨c, _, rfl, ne_sign_of_isDigit (hdigits c List.mem_cons_self)⟩
    | @point whole places hwhole _ _ =>
      cases whole with
      | nil => exact ⟨'.', _, rfl, by decide, by decide⟩
      | cons c whole => exact ⟨c, _, rfl, ne_sign_of_isDigit (hwhole c List.mem_cons_self)⟩

theorem isSome_readDecimal?_iff : (readDecimal? s).isSome = true ↔
    ∃ sign text, s = sign ++ text ∧ IsSign sign ∧ IsDecimal text := by
  constructor
  · intro h
    unfold readDecimal? at h
    split at h
    · exact ⟨['-'], _, rfl, .minus, isSome_readUnsigned?_iff.mp h⟩
    · exact ⟨['+'], _, rfl, .plus, isSome_readUnsigned?_iff.mp h⟩
    · exact ⟨[], s, rfl, .none, isSome_readUnsigned?_iff.mp h⟩
  · rintro ⟨sign, text, rfl, hsign, htext⟩
    cases hsign with
    | minus => exact isSome_readUnsigned?_iff.mpr htext
    | plus => exact isSome_readUnsigned?_iff.mpr htext
    | none =>
      obtain ⟨c, r, rfl, hminus, hplus⟩ := htext.exists_cons
      unfold readDecimal?
      split
      · next h => exact absurd (List.cons.inj h).1 hminus
      · next h => exact absurd (List.cons.inj h).1 hplus
      · exact isSome_readUnsigned?_iff.mpr htext

/-! ### Hexadecimal integers -/

/-- A hexadecimal integer past 64 bits. -/
inductive IsLargeHex : List Char → Prop where
  | mk {mark : Char} {digits : List Char} {n : Nat} (hmark : IsHexMark mark)
      (hread : readNat? 16 digits = some n) (hn : 0x8000000000000000 ≤ n) :
      IsLargeHex ('0' :: mark :: digits)

/-- A hexadecimal integer within 64 bits that has a sign after its mark. -/
inductive IsSignedHex : List Char → Prop where
  | plus {mark : Char} {digits : List Char} {n : Nat} (hmark : IsHexMark mark)
      (hread : readNat? 16 digits = some n) (hn : n < 0x8000000000000000) :
      IsSignedHex ('0' :: mark :: '+' :: digits)
  | minus {mark : Char} {digits : List Char} {n : Nat} (hmark : IsHexMark mark)
      (hread : readNat? 16 digits = some n) (hn : n ≤ 0x8000000000000000) :
      IsSignedHex ('0' :: mark :: '-' :: digits)

theorem afterHexMark?_eq_some_iff :
    afterHexMark? s = some r ↔ ∃ mark, IsHexMark mark ∧ s = '0' :: mark :: r := by
  constructor
  · intro h
    unfold afterHexMark? at h
    split at h
    · cases h
      exact ⟨'x', .small, rfl⟩
    · cases h
      exact ⟨'X', .capital, rfl⟩
    · cases h
  · rintro ⟨mark, hmark, rfl⟩
    cases hmark with
    | small => rfl
    | capital => rfl

/-- A text with the mark of a hexadecimal integer stands for a number if digits follow. -/
theorem isNumeric_hex_iff {mark : Char} (hmark : IsHexMark mark) :
    IsNumeric ('0' :: mark :: r) ↔ ∃ n, readNat? 16 r = some n := by
  rw [← Option.isSome_iff_exists, isSome_readNat?_sixteen_iff]
  constructor
  · intro h
    generalize ht : '0' :: mark :: r = t at h
    cases h with
    | empty => cases ht
    | infinity hsign => cases hsign <;> simp at ht
    | hex _ hne hdigits =>
      obtain ⟨-, -, rfl⟩ := by simpa using ht
      exact ⟨hne, hdigits⟩
    | decimal hsign htext =>
      -- the mark goes on with no fraction
      have hread := isSome_readDecimal?_iff.mpr ⟨_, _, ht, hsign, htext⟩
      cases hmark <;> cases hread
  · rintro ⟨hne, hdigits⟩
    exact .hex hmark hne hdigits

/-- What follows the mark is read if it stands for a number within 64 bits, or has a sign. -/
theorem isSome_readSigned?_hex_iff {mark : Char} (hmark : IsHexMark mark) :
    (readSigned? 16 r).isSome = true ↔
      (IsNumeric ('0' :: mark :: r) ∧ ¬ IsLargeHex ('0' :: mark :: r)) ∨
        IsSignedHex ('0' :: mark :: r) := by
  rw [isNumeric_hex_iff hmark]
  by_cases hminus : ∃ t, r = '-' :: t
  · obtain ⟨t, rfl⟩ := hminus
    rw [Text.isSome_readSigned?_minus_iff]
    constructor
    · rintro ⟨n, hread, hn⟩
      exact .inr (.minus hmark hread hn)
    · rintro (⟨⟨n, hread⟩, -⟩ | hsigned)
      · cases hread
      · cases hsigned with
        | minus _ hread hn => exact ⟨_, hread, hn⟩
  by_cases hplus : ∃ t, r = '+' :: t
  · obtain ⟨t, rfl⟩ := hplus
    rw [Text.isSome_readSigned?_plus_iff]
    constructor
    · rintro ⟨n, hread, hn⟩
      exact .inr (.plus hmark hread hn)
    · rintro (⟨⟨n, hread⟩, -⟩ | hsigned)
      · cases hread
      · cases hsigned with
        | plus _ hread hn => exact ⟨_, hread, hn⟩
  rw [Text.isSome_readSigned?_iff (not_exists.mp hminus) (not_exists.mp hplus)]
  constructor
  · rintro ⟨n, hread, hn⟩
    refine .inl ⟨⟨n, hread⟩, fun hlarge => ?_⟩
    cases hlarge with
    | mk _ hread' hn' =>
      cases hread.symm.trans hread'
      omega
  · rintro (⟨⟨n, hread⟩, hsmall⟩ | hsigned)
    · refine ⟨n, hread, Nat.lt_of_not_le fun hn => hsmall (.mk hmark hread hn)⟩
    · cases hsigned with
      | plus _ _ _ => exact absurd ⟨_, rfl⟩ hplus
      | minus _ _ _ => exact absurd ⟨_, rfl⟩ hminus

/-! ### Values -/

theorem ofMagnitude_ne_nan (num den : Nat) : ofMagnitude negative num den ≠ nan := by
  rw [ofMagnitude]
  split
  · split <;> simp
  split
  · simp
  dsimp only
  split
  · split <;> simp
  split <;> simp

theorem ofDecimal_ne_nan (digits : Nat) (e : Int) : ofDecimal negative digits e ≠ nan := by
  unfold ofDecimal
  dsimp only
  split
  · exact ofMagnitude_ne_nan _ _
  split
  · simp
  split <;> exact ofMagnitude_ne_nan _ _

theorem readUnsigned?_ne_nan {x : Number} (h : readUnsigned? negative s = some x) : x ≠ nan := by
  rw [readUnsigned?] at h
  dsimp only at h
  split at h
  · cases h
  · obtain ⟨e, -, rfl⟩ := Option.map_eq_some_iff.mp h
    exact ofDecimal_ne_nan _ _

theorem readDecimal?_ne_nan {x : Number} (h : readDecimal? s = some x) : x ≠ nan := by
  unfold readDecimal? at h
  split at h
  · exact readUnsigned?_ne_nan h
  · exact readUnsigned?_ne_nan h
  · exact readUnsigned?_ne_nan h

/-! ### What is read as a number -/

theorem IsLargeHex.isNumeric (h : IsLargeHex s) : IsNumeric s := by
  cases h with
  | mk hmark hread _ => exact (isNumeric_hex_iff hmark).mpr ⟨_, hread⟩

/-- A sign after the mark is no digit. -/
theorem IsSignedHex.not_isNumeric (h : IsSignedHex s) : ¬ IsNumeric s := by
  intro hnumeric
  cases h with
  | plus hmark _ _ =>
    obtain ⟨n, hread⟩ := (isNumeric_hex_iff hmark).mp hnumeric
    cases hread
  | minus hmark _ _ =>
    obtain ⟨n, hread⟩ := (isNumeric_hex_iff hmark).mp hnumeric
    cases hread

theorem ne_marked (h : afterHexMark? t = none) {mark : Char} (hmark : IsHexMark mark)
    (r : List Char) : t ≠ '0' :: mark :: r := by
  intro ht
  cases h.symm.trans (afterHexMark?_eq_some_iff.mpr ⟨mark, hmark, ht⟩)

/-- Without the mark of a hexadecimal integer a text stands for a number if it is empty, infinity or
a decimal fraction. -/
theorem isNumeric_iff_of_not_hex (h : afterHexMark? t = none) : IsNumeric t ↔
    t = [] ∨ (t = "Infinity".toList ∨ t = "+Infinity".toList) ∨ t = "-Infinity".toList ∨
      (readDecimal? t).isSome = true := by
  constructor
  · intro hnumeric
    cases hnumeric with
    | empty => exact .inl rfl
    | infinity hsign =>
      cases hsign with
      | none => exact .inr (.inl (.inl rfl))
      | plus => exact .inr (.inl (.inr rfl))
      | minus => exact .inr (.inr (.inl rfl))
    | hex hmark _ _ => exact absurd rfl (ne_marked h hmark _)
    | decimal hsign htext =>
      exact .inr (.inr (.inr (isSome_readDecimal?_iff.mpr ⟨_, _, rfl, hsign, htext⟩)))
  · rintro (rfl | (rfl | rfl) | rfl | hread)
    · exact .empty
    · exact .infinity .none
    · exact .infinity .plus
    · exact .infinity .minus
    · obtain ⟨sign, text, rfl, hsign, htext⟩ := isSome_readDecimal?_iff.mp hread
      exact .decimal hsign htext

/-- Without the mark a text is no hexadecimal integer, large or with a sign. -/
theorem not_isLargeHex (h : afterHexMark? t = none) : ¬ IsLargeHex t := by
  rintro ⟨hmark, _, _⟩
  exact ne_marked h hmark _ rfl

theorem not_isSignedHex (h : afterHexMark? t = none) : ¬ IsSignedHex t := by
  intro hsigned
  cases hsigned with
  | plus hmark _ _ => exact ne_marked h hmark _ rfl
  | minus hmark _ _ => exact ne_marked h hmark _ rfl

theorem getD_readDecimal?_ne_nan_iff :
    (readDecimal? t).getD nan ≠ nan ↔ (readDecimal? t).isSome = true := by
  cases hread : readDecimal? t with
  | none => simp
  | some x => simpa using readDecimal?_ne_nan hread

theorem ofInt_ne_nan (i : Int) : ofInt i ≠ nan := ofMagnitude_ne_nan _ _

/-- What is read as a number: all that stands for one except the large hexadecimal integers, and
the hexadecimal integers with a sign besides. -/
theorem ofText_ne_nan_iff (s : List Char) : ofText s ≠ nan ↔
    (IsNumeric (trim s) ∧ ¬ IsLargeHex (trim s)) ∨ IsSignedHex (trim s) := by
  rw [ofText]
  generalize trim s = t
  split
  · next hempty =>
    obtain rfl := List.isEmpty_iff.mp hempty
    exact iff_of_true (by simp) (.inl ⟨.empty, not_isLargeHex rfl⟩)
  next hne =>
  split
  · next r hafter =>
    obtain ⟨mark, hmark, rfl⟩ := afterHexMark?_eq_some_iff.mp hafter
    rw [← isSome_readSigned?_hex_iff hmark]
    cases readSigned? 16 r with
    | none => simp
    | some i => simpa using ofInt_ne_nan i
  · next hmark =>
    rw [iff_false_intro (not_isSignedHex hmark), or_false,
      and_iff_left (not_isLargeHex hmark), isNumeric_iff_of_not_hex hmark]
    have hne : t ≠ [] := by simpa using hne
    rw [iff_false_intro hne, false_or]
    split
    · next hplus =>
      rw [Bool.or_eq_true, decide_eq_true_eq, decide_eq_true_eq] at hplus
      exact iff_of_true (by simp) (.inl hplus)
    next hplus =>
    rw [Bool.or_eq_true, decide_eq_true_eq, decide_eq_true_eq] at hplus
    rw [iff_false_intro hplus, false_or]
    split
    · next hminus => exact iff_of_true (by simp) (.inl hminus)
    · next hminus => rw [iff_false_intro hminus, false_or, getD_readDecimal?_ne_nan_iff]

/-- **The numbers a text stands for.**  Of the texts that stand for a number all and no others are
read as one, but for the hexadecimal integers past 64 bits, which are not, and those with a sign
after their mark, which are. -/
theorem accepts_iff (s : List Char) :
    (ofText s ≠ nan ↔ IsNumeric (trim s)) ↔ ¬ IsLargeHex (trim s) ∧ ¬ IsSignedHex (trim s) := by
  rw [ofText_ne_nan_iff]
  have hlarge : IsLargeHex (trim s) → IsNumeric (trim s) := IsLargeHex.isNumeric
  have hsigned : IsSignedHex (trim s) → ¬ IsNumeric (trim s) := IsSignedHex.not_isNumeric
  tauto

/-- A hexadecimal integer with a sign after its mark stands for no number and is read as one; two to
the power 63 stands for a number and is not read. -/
theorem hex_misread :
    (¬ IsNumeric (trim "0x-5".toList) ∧ ofText "0x-5".toList = finite (-5)) ∧
      IsNumeric (trim "0x8000000000000000".toList) ∧ ofText "0x8000000000000000".toList = nan := by
  have hfive : readNat? 16 ['5'] = some 5 := rfl
  have hsigned : IsSignedHex (trim "0x-5".toList) := .minus .small hfive (by decide)
  have hlarge : IsLargeHex (trim "0x8000000000000000".toList) := .mk .small rfl (by decide)
  exact ⟨⟨hsigned.not_isNumeric, by decide⟩, hlarge.isNumeric, by decide⟩

end Scrape.Number
