import Mathlib
import Scrape.Proofs.Script.Method
import Scrape.Proofs.Script.Yields
import Scrape.Proofs.Text.Integer

/-!
# Script — Position

Positions in the texts of scripts count characters.  Numbers that count are exact
(`add_ofNat`), and a number that counts stands for the place it counts (`placeOf_ofNat`), as does
its text in brackets (`readCount?_text_ofNat`).  So what a script finds at a position by slicing is
what stands there (`yields_standsAt_iff`).

Main statement (`positions_agree`): the methods that search, slice and pick characters agree on
positions, and both slices at any position make up the text, if it has no more bytes than a text may
have.
-/

namespace Scrape.Script

open Run

/-! ### Numbers that count -/

section

variable {i j len : Nat}

/-- Natural numbers of 53 bits are exact. -/
theorem ofNat_eq_finite (h : i < 2 * Number.hiddenBit) : Number.ofNat i = .finite i := by
  rw [Number.ofNat, Number.ofMagnitude]
  split
  · rename_i hzero
    rw [hzero]
    rfl
  · rw [if_pos ⟨rfl, h⟩]
    rfl

theorem add_ofNat (h : i + j < 2 * Number.hiddenBit) :
    (Number.ofNat i).add (.ofNat j) = .ofNat (i + j) := by
  have hi : i < 2 * Number.hiddenBit := by omega
  have hj : j < 2 * Number.hiddenBit := by omega
  rw [ofNat_eq_finite hi, ofNat_eq_finite hj]
  change Number.ofRat ((i : Rat) + j) = _
  rw [← Nat.cast_add, Number.ofRat, Rat.num_natCast, Rat.den_natCast, Int.natAbs_natCast,
    decide_eq_false (by omega), Number.ofNat]

theorem toCount_ofNat (h : i < 2 * Number.hiddenBit) : (Number.ofNat i).toCount = i := by
  have hbits : 2 * Number.hiddenBit = 0x20000000000000 := rfl
  rw [ofNat_eq_finite h, Number.toCount, Number.saturate, Rat.num_natCast, Rat.den_natCast]
  simp
  omega

theorem not_lt_zero_ofNat (h : i < 2 * Number.hiddenBit) :
    (Number.ofNat i).lt (.finite 0) = false := by
  have hle : ¬ (i : Rat) < 0 := not_lt.mpr (Nat.cast_nonneg i)
  have hcompare : Number.compare? (.finite i) (.finite 0) =
      some (if (i : Rat) < 0 then .lt else if (i : Rat) = 0 then .eq else .gt) := rfl
  rw [ofNat_eq_finite h, Number.lt, hcompare, if_neg hle]
  split <;> rfl

theorem placeOf_ofNat (h : i < 2 * Number.hiddenBit) :
    placeOf (Number.ofNat i) len = min i len := by
  have hnan : (Number.ofNat i).isNaN = false := by
    rw [ofNat_eq_finite h]
    rfl
  simp [placeOf, hnan, not_lt_zero_ofNat h, toCount_ofNat h]

theorem itemAt?_ofNat {α : Type} (h : i < 2 * Number.hiddenBit) (l : List α) :
    itemAt? (Number.ofNat i) l = l[i]? := by
  have hnan : (Number.ofNat i).isNaN = false := by
    rw [ofNat_eq_finite h]
    rfl
  simp [itemAt?, hnan, not_lt_zero_ofNat h, toCount_ofNat h]

/-- The text of a number that counts is read as the number. -/
theorem readCount?_text_ofNat (h : i < 2 * Number.hiddenBit) :
    Text.readCount? (Number.ofNat i).text = some i := by
  have hbits : 2 * Number.hiddenBit = 0x20000000000000 := rfl
  have htext : (Number.ofNat i).text = Text.decimal i := by
    rw [ofNat_eq_finite h, Number.text]
    split
    · rename_i hzero
      rw [Nat.cast_eq_zero.mp hzero]
      rfl
    · have hsmall : i < Nat.pow 10 21 := by
        change i < 1000000000000000000000
        omega
      rw [if_pos ⟨Rat.den_natCast i, by simpa using hsmall⟩, Rat.num_natCast, Text.decimalInt,
        if_neg (by omega), Int.natAbs_natCast]
  have hne : Text.decimal i ≠ [] := Nat.toDigits_ne_nil
  have hvalue : Nat.ofDigitChars 10 (Text.decimal i) 0 = i := Nat.ofDigitChars_ten_toDigits
  rw [htext, Text.readCount?_of_digits hne (fun c hc => ?_) (by omega), hvalue]
  rw [Text.isDigit_eq]
  exact Nat.isDigit_of_mem_toDigits (by decide) (by decide) hc

end

/-! ### Slices -/

section

variable {α : Type} {i j n : Nat} {l : List α}

theorem between_zero (n : Nat) (l : List α) : between 0 n l = l.take n := by
  rw [between, List.drop_zero, Nat.sub_zero]

theorem between_length (i : Nat) (l : List α) : between i l.length l = l.drop i := by
  rw [between, List.take_of_length_le (by rw [List.length_drop])]

/-- A slice of some length, which may go past the end. -/
theorem between_add (hi : i ≤ l.length) :
    between (min i l.length) (min (i + n) l.length) l = (l.drop i).take n := by
  rw [between, Nat.min_eq_left hi]
  rcases Nat.le_total (i + n) l.length with h | h
  · rw [Nat.min_eq_left h, Nat.add_sub_cancel_left]
  · rw [Nat.min_eq_right h, List.take_of_length_le (by rw [List.length_drop]),
      List.take_of_length_le (by rw [List.length_drop]; omega)]

end

/-- An argument that is not undefined stands for a place. -/
theorem placeArgument_of_getElem? {k : Nat} {args : List Value} {w : Value} (hw : args[k]? = some w)
    (h : w.isUndefined = false) (len default : Nat) :
    placeArgument k len default args = placeOf w.toNumber len := by
  have hgiven : given? k args = some w := by
    rw [given?, hw, Option.filter, h]
    rfl
  rw [placeArgument, hgiven]

/-- The slice of a text between two positions. -/
theorem textMethod_slice (s : String) {i j : Nat} (hi : i < 2 * Number.hiddenBit)
    (hj : j < 2 * Number.hiddenBit) :
    textMethod s "slice" [.ofNat i, .ofNat j] =
      .ok (.ofChars (between (min i s.length) (min j s.length) s.toList)) := by
  rw [← placeOf_ofNat hi, ← placeOf_ofNat hj]
  rfl

/-! ### Calls on a variable -/

/-- A call of a method of a variable. -/
def methodOf (x method : String) (args : List Expr) : Expr :=
  .call (.member (.name x) (.text method)) args

/-- What a variable holds from a position on, for as many characters as another has, is what the
other holds. -/
def standsAt (x y : String) (i : Nat) : Expr :=
  .binary .same
    (methodOf x "slice"
      [.number (.ofNat i), .binary .add (.number (.ofNat i)) (.member (.name y) (.text "length"))])
    (.name y)

/-- The positions of one variable in another, up to the end of it, as slicing finds them. -/
def positions (depth : Nat) (σ : State) (x y s : String) : Set Nat :=
  {i | i ≤ s.length ∧ Yields (depth + 5) σ (standsAt x y i) (.bool true)}

/-- What is before a position in a variable, joined with what is after it. -/
def bothSlices (x z : String) : Expr :=
  .binary .add (methodOf x "slice" [.number (.ofNat 0), .name z]) (methodOf x "slice" [.name z])

variable {σ : State} {x y z s t : String} (depth : Nat)

theorem yields_standsAt (hx : σ.lookup? x = some (.string s)) (hy : σ.lookup? y = some (.string t))
    (hlength : s.length + t.length < 2 * Number.hiddenBit) {i : Nat} (hi : i ≤ s.length) :
    Yields (depth + 5) σ (standsAt x y i)
      (.bool (String.ofList ((s.toList.drop i).take t.length) == t)) := by
  have hsum : Yields (depth + 3) σ
      (.binary .add (.number (.ofNat i)) (.member (.name y) (.text "length")))
      (.ofNat (i + t.length)) := by
    rw [Value.ofNat, ← add_ofNat (by omega)]
    exact (Yields.number (Number.ofNat i)).add (Yields.ofLookup hy).length
  have hpart : between (min i s.length) (min (i + t.length) s.length) s.toList =
      (s.toList.drop i).take t.length := by
    rw [← String.length_toList, between_add (by rwa [String.length_toList])]
  have hslice : Yields (depth + 4) σ (methodOf x "slice" _)
      (.ofChars (between (min i s.length) (min (i + t.length) s.length) s.toList)) :=
    (Yields.ofLookup hx).textCall (.cons (.number _) (.cons hsum .nil)) rfl
      (textMethod_slice s (by omega) (by omega))
  rw [hpart] at hslice
  exact hslice.same (.ofLookup hy)

theorem yields_standsAt_iff (hx : σ.lookup? x = some (.string s))
    (hy : σ.lookup? y = some (.string t)) (hlength : s.length + t.length < 2 * Number.hiddenBit)
    {i : Nat} (hi : i ≤ s.length) :
    Yields (depth + 5) σ (standsAt x y i) (.bool true) ↔ Text.OccursAt t.toList s.toList i := by
  have hyields := yields_standsAt depth hx hy hlength hi
  have heq : String.ofList ((s.toList.drop i).take t.length) = t ↔
      (s.toList.drop i).take t.toList.length = t.toList := by
    rw [String.length_toList, ← String.toList_inj, String.toList_ofList]
  rw [Text.occursAt_iff, String.length_toList, and_iff_right hi, ← heq]
  constructor
  · intro h
    exact beq_iff_eq.mp (Value.bool.inj (hyields.unique h))
  · intro h
    rwa [beq_iff_eq.mpr h] at hyields

/-- Slicing finds the positions at which a text stands in another. -/
theorem positions_eq (hx : σ.lookup? x = some (.string s)) (hy : σ.lookup? y = some (.string t))
    (hlength : s.length + t.length < 2 * Number.hiddenBit) :
    positions depth σ x y s = {i | Text.OccursAt t.toList s.toList i} := by
  ext i
  constructor
  · rintro ⟨hi, hyields⟩
    exact (yields_standsAt_iff depth hx hy hlength hi).mp hyields
  · intro h
    have hi : i ≤ s.length := by
      rw [← String.length_toList]
      exact (Text.occursAt_iff.mp h).1
    exact ⟨hi, (yields_standsAt_iff depth hx hy hlength hi).mpr h⟩

/-- Slicing finds the empty text at every position, those past the end included. -/
theorem yields_standsAt_empty (hx : σ.lookup? x = some (.string s))
    (hy : σ.lookup? y = some (.string "")) {i : Nat} (hi : i < 2 * Number.hiddenBit) :
    Yields (depth + 5) σ (standsAt x y i) (.bool true) := by
  have hlength : Yields (depth + 2) σ (.member (.name y) (.text "length")) (.ofNat 0) :=
    (Yields.ofLookup hy).length
  have hadd : (Number.ofNat i).add (.ofNat 0) = .ofNat i := add_ofNat hi
  have hsum : Yields (depth + 3) σ
      (.binary .add (.number (.ofNat i)) (.member (.name y) (.text "length")))
      (.number ((Number.ofNat i).add (.ofNat 0))) :=
    (Yields.number (Number.ofNat i)).add hlength
  rw [hadd] at hsum
  have hslice : Yields (depth + 4) σ (methodOf x "slice" _)
      (.ofChars (between (min i s.length) (min i s.length) s.toList)) :=
    (Yields.ofLookup hx).textCall (.cons (.number _) (.cons hsum .nil)) rfl
      (textMethod_slice s hi hi)
  rw [between, Nat.sub_self, List.take_zero] at hslice
  exact hslice.same (.ofLookup hy)

/-! ### Searching -/

section

variable (hx : σ.lookup? x = some (.string s)) (hy : σ.lookup? y = some (.string t))

include hx hy

theorem yields_indexOf : Yields (depth + 2) σ (methodOf x "indexOf" [.name y])
    (foundPlace (Text.cut? t.toList s.toList)) :=
  (Yields.ofLookup hx).textCall (.cons (.ofLookup hy) .nil) rfl rfl

theorem yields_lastIndexOf : Yields (depth + 2) σ (methodOf x "lastIndexOf" [.name y])
    (foundPlace (Text.cutLast? t.toList s.toList)) :=
  (Yields.ofLookup hx).textCall (.cons (.ofLookup hy) .nil) rfl rfl

theorem yields_includes : Yields (depth + 2) σ (methodOf x "includes" [.name y])
    (.bool (Text.contains t.toList s.toList)) :=
  (Yields.ofLookup hx).textCall (.cons (.ofLookup hy) .nil) rfl rfl

end

/-! ### Characters -/

section

variable (hx : σ.lookup? x = some (.string s)) {i : Nat} {c : Char}

include hx

theorem yields_charAt (hi : i < 2 * Number.hiddenBit) (hc : s.toList[i]? = some c) :
    Yields (depth + 2) σ (methodOf x "charAt" [.number (.ofNat i)]) (.ofChars [c]) := by
  refine (Yields.ofLookup hx).textCall (.cons (.number _) .nil) rfl ?_
  change Except.ok (Value.ofChars (itemAt? (Number.ofNat i) s.toList).toList) = _
  rw [itemAt?_ofNat hi, hc]
  rfl

theorem yields_index (hi : i < 2 * Number.hiddenBit) (hc : s.toList[i]? = some c) :
    Yields (depth + 2) σ (.member (.name x) (.computed (.number (.ofNat i)))) (.ofChars [c]) := by
  have hget : (Value.string s).get (Value.ofNat i).text = .ofChars [c] := by
    have hread : Text.readCount? (Value.ofNat i).text.toList = some i := by
      rw [Value.ofNat, Value.text, String.toList_ofList]
      exact readCount?_text_ofNat hi
    have hne : (Value.ofNat i).text ≠ "length" := by
      intro h
      rw [h] at hread
      cases hread
    rw [Value.get, if_neg hne, hread, Option.bind_some, hc]
    rfl
  exact hget ▸ (Yields.ofLookup hx).index (Yields.number (Number.ofNat i))

theorem yields_slice_succ (hi : i + 1 < 2 * Number.hiddenBit) (hc : s.toList[i]? = some c) :
    Yields (depth + 3) σ
      (methodOf x "slice"
        [.number (.ofNat i), .binary .add (.number (.ofNat i)) (.number (.ofNat 1))])
      (.ofChars [c]) := by
  have hsum : Yields (depth + 2) σ (.binary .add (.number (.ofNat i)) (.number (.ofNat 1)))
      (.ofNat (i + 1)) := by
    rw [Value.ofNat, ← add_ofNat hi]
    exact (Yields.number (Number.ofNat i)).add (Yields.number (Number.ofNat 1))
  obtain ⟨hlt, rfl⟩ := List.getElem?_eq_some_iff.mp hc
  have hpart := between_add (n := 1) hlt.le
  rw [List.drop_eq_getElem_cons hlt, List.take_succ_cons, List.take_zero,
    String.length_toList] at hpart
  rw [← hpart]
  exact (Yields.ofLookup hx).textCall (.cons (.number _) (.cons hsum .nil)) rfl
    (textMethod_slice s (by omega) hi)

end

/-! ### Both slices at a position -/

/-- Both slices at a position make up the text, unless it is too long. -/
theorem run_bothSlices (hx : σ.lookup? x = some (.string s)) {w : Value}
    (hz : σ.lookup? z = some w) (hw : w.isUndefined = false) :
    ((interp put (depth + 3)).eval (bothSlices x z)).run σ =
      if maxStringSize < s.utf8ByteSize then (.error (.fault .stringTooLong), σ)
      else (.ok (.string s), σ) := by
  let place := placeOf w.toNumber s.length
  have hbefore : Yields (depth + 2) σ (methodOf x "slice" [.number (.ofNat 0), .name z])
      (.ofChars (s.toList.take place)) := by
    refine (Yields.ofLookup hx).textCall (.cons (.number _) (.cons (.ofLookup hz) .nil)) rfl ?_
    rw [← between_zero]
    exact congrArg (fun n => Except.ok (Value.ofChars (between 0 n s.toList)))
      (placeArgument_of_getElem? rfl hw s.length s.length)
  have hafter : Yields (depth + 2) σ (methodOf x "slice" [.name z])
      (.ofChars (s.toList.drop place)) := by
    refine (Yields.ofLookup hx).textCall (.cons (.ofLookup hz) .nil) rfl ?_
    rw [← between_length, String.length_toList]
    exact congrArg (fun n => Except.ok (Value.ofChars (between n s.length s.toList)))
      (placeArgument_of_getElem? rfl hw s.length 0)
  have hwhole : String.ofList (s.toList.take place) ++ String.ofList (s.toList.drop place) = s := by
    rw [← String.ofList_append, List.take_append_drop, String.ofList_toList]
  refine (hbefore.run_eval_add hafter).trans ?_
  change
    (((joined (String.ofList _) (String.ofList _)).map Value.string).mapError Subtype.val, σ) = _
  rw [joined, ← String.utf8ByteSize_append, hwhole]
  split <;> rfl

/-- **Positions agree.**  For variables that hold texts whose lengths are exact numbers: `indexOf`
gives the least position at which slicing finds the one text in the other, and `lastIndexOf` the
greatest; both give minus one exactly if there is none, and `includes` is true exactly if there is
one.  At each position below the length, `charAt`, brackets and `slice` give the character.  At any
place that a value stands for, the slices before and after it make up the text, which the sum gives
if it has no more bytes than a text may have. -/
theorem positions_agree (hx : σ.lookup? x = some (.string s)) (hy : σ.lookup? y = some (.string t))
    (hlength : s.length + t.length < 2 * Number.hiddenBit) :
    ((positions depth σ x y s).Nonempty → ∃ i j, IsLeast (positions depth σ x y s) i ∧
      IsGreatest (positions depth σ x y s) j ∧
      Yields (depth + 2) σ (methodOf x "indexOf" [.name y]) (.ofNat i) ∧
      Yields (depth + 2) σ (methodOf x "lastIndexOf" [.name y]) (.ofNat j) ∧
      Yields (depth + 2) σ (methodOf x "includes" [.name y]) (.bool true)) ∧
    (positions depth σ x y s = ∅ →
      Yields (depth + 2) σ (methodOf x "indexOf" [.name y]) (.number (.finite (-1))) ∧
      Yields (depth + 2) σ (methodOf x "lastIndexOf" [.name y]) (.number (.finite (-1))) ∧
      Yields (depth + 2) σ (methodOf x "includes" [.name y]) (.bool false)) ∧
    (∀ i < s.length, ∃ c, s.toList[i]? = some c ∧
      Yields (depth + 2) σ (methodOf x "charAt" [.number (.ofNat i)]) (.ofChars [c]) ∧
      Yields (depth + 2) σ (.member (.name x) (.computed (.number (.ofNat i)))) (.ofChars [c]) ∧
      Yields (depth + 3) σ
        (methodOf x "slice"
          [.number (.ofNat i), .binary .add (.number (.ofNat i)) (.number (.ofNat 1))])
        (.ofChars [c])) ∧
    ∀ z w, σ.lookup? z = some w → w.isUndefined = false → s.utf8ByteSize ≤ maxStringSize →
      Yields (depth + 3) σ (bothSlices x z) (.string s) := by
  have hplaces := positions_eq depth hx hy hlength
  have hfirst := yields_indexOf depth hx hy
  have hlast := yields_lastIndexOf depth hx hy
  have hincludes := yields_includes depth hx hy
  refine ⟨fun hsome => ?_, fun hnone => ?_, fun i hi => ?_, fun z w hz hw hsize => ?_⟩
  · rw [hplaces] at hsome ⊢
    have hin : t.toList <:+: s.toList := Text.exists_occursAt_iff.mp hsome
    obtain ⟨⟨before, rest⟩, hcut⟩ :=
      Option.ne_none_iff_exists'.mp (mt Text.cut?_eq_none_iff.mp (not_not_intro hin))
    obtain ⟨⟨before', rest'⟩, hcut'⟩ :=
      Option.ne_none_iff_exists'.mp (mt Text.cutLast?_eq_none_iff.mp (not_not_intro hin))
    rw [hcut] at hfirst
    rw [hcut'] at hlast
    rw [Text.contains_iff.mpr hin] at hincludes
    exact ⟨before.length, before'.length, Text.isLeast_of_cut? hcut,
      Text.isGreatest_of_cutLast? hcut', hfirst, hlast, hincludes⟩
  · have hin : ¬ t.toList <:+: s.toList := fun hin => by
      obtain ⟨i, hi⟩ := Text.exists_occursAt_iff.mpr hin
      exact Set.eq_empty_iff_forall_notMem.mp (hplaces ▸ hnone) i hi
    rw [Text.cut?_eq_none_iff.mpr hin] at hfirst
    rw [Text.cutLast?_eq_none_iff.mpr hin] at hlast
    rw [Bool.eq_false_iff.mpr (mt Text.contains_iff.mp hin)] at hincludes
    exact ⟨hfirst, hlast, hincludes⟩
  · obtain ⟨c, hc⟩ : ∃ c, s.toList[i]? = some c :=
      ⟨_, List.getElem?_eq_getElem (by rwa [String.length_toList])⟩
    exact ⟨c, hc, yields_charAt depth hx (by omega) hc, yields_index depth hx (by omega) hc,
      yields_slice_succ depth hx (by omega) hc⟩
  · have hrun := run_bothSlices depth hx hz hw
    rwa [if_neg (Nat.not_lt.mpr hsize)] at hrun

/-- The state before a run on a text, with a character of three bytes to look for and a position. -/
def beforeSearching : State :=
  ((State.initial (.string "a€b€") none Session.empty 100).declare "t" (.string "€")).declare
    "i" (.ofNat 2)

theorem positions_agree_wide :
    beforeSearching.lookup? "result" = some (.string "a€b€") ∧
    beforeSearching.lookup? "t" = some (.string "€") ∧
    beforeSearching.lookup? "i" = some (.ofNat 2) ∧
    Yields 2 beforeSearching (methodOf "result" "indexOf" [.name "t"]) (.ofNat 1) ∧
    Yields 2 beforeSearching (methodOf "result" "lastIndexOf" [.name "t"]) (.ofNat 3) ∧
    Yields 2 beforeSearching (methodOf "result" "charAt" [.number (.ofNat 1)]) (.string "€") ∧
    Yields 3 beforeSearching (bothSlices "result" "i") (.string "a€b€") := by
  have hx : beforeSearching.lookup? "result" = some (.string "a€b€") := rfl
  have hy : beforeSearching.lookup? "t" = some (.string "€") := rfl
  have hz : beforeSearching.lookup? "i" = some (.ofNat 2) := rfl
  have hcut : Text.cut? "€".toList "a€b€".toList = some (['a'], ['b', '€']) := rfl
  have hcutLast : Text.cutLast? "€".toList "a€b€".toList = some (['a', '€', 'b'], []) := rfl
  have hlength : "a€b€".length + "€".length < 2 * Number.hiddenBit := by decide
  have hplaces := positions_eq 0 hx hy hlength
  obtain ⟨hfound, -, hchars, hslices⟩ := positions_agree 0 hx hy hlength
  have hleast := Text.isLeast_of_cut? hcut
  have hgreatest := Text.isGreatest_of_cutLast? hcutLast
  rw [← hplaces] at hleast hgreatest
  obtain ⟨i, j, hi, hj, hfirst, hlast, -⟩ := hfound ⟨_, hleast.1⟩
  obtain rfl := hi.unique hleast
  obtain rfl := hj.unique hgreatest
  obtain ⟨c, hc, hcharAt, -⟩ := hchars 1 (by decide)
  obtain rfl := Option.some.inj hc
  exact ⟨hx, hy, hz, hfirst, hlast, hcharAt, hslices "i" _ hz rfl (by decide)⟩

/-! Slicing finds the empty text past the end too, where no search looks.  And a text that has one
byte more than a text may have, which templates and the value that a script is run on can have, is
not put together again. -/

/-- The state before a run on a text, with the empty text to look for. -/
def beforeSearchingEmpty : State :=
  (State.initial (.string "a€b€") none Session.empty 100).declare "t" (.string "")

/-- A text of one byte too many. -/
def overfull : String := repeatedText (maxStringSize + 1) "x"

/-- The state before a run on the text, with a position. -/
def beforeCutting : State :=
  (State.initial (.string overfull) none Session.empty 100).declare "i" (.ofNat 1)

theorem positions_disagree :
    (Yields 2 beforeSearchingEmpty (methodOf "result" "lastIndexOf" [.name "t"]) (.ofNat 4) ∧
      Yields 5 beforeSearchingEmpty (standsAt "result" "t" 5) (.bool true)) ∧
    beforeCutting.lookup? "result" = some (.string overfull) ∧
    beforeCutting.lookup? "i" = some (.ofNat 1) ∧
    ¬ Yields 3 beforeCutting (bothSlices "result" "i") (.string overfull) := by
  have hx : beforeCutting.lookup? "result" = some (.string overfull) := rfl
  have hz : beforeCutting.lookup? "i" = some (.ofNat 1) := rfl
  have hlast : Yields 2 beforeSearchingEmpty (methodOf "result" "lastIndexOf" [.name "t"])
      (.ofNat 4) := rfl
  have hpast : Yields 5 beforeSearchingEmpty (standsAt "result" "t" 5) (.bool true) :=
    yields_standsAt_empty 0 rfl rfl (by decide)
  refine ⟨⟨hlast, hpast⟩, hx, hz, fun h => ?_⟩
  have hsize : maxStringSize < overfull.utf8ByteSize := by
    rw [overfull, utf8ByteSize_repeatedText]
    decide
  have hrun := run_bothSlices 0 hx hz rfl
  rw [if_pos hsize] at hrun
  cases hrun.symm.trans h

end Scrape.Script
