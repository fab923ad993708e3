import Mathlib.Algebra.Order.Ring.Rat
import Scrape.Script.Value

/-!
# Script — Equality

The two equalities of script values.  The strict one holds of values of one kind only.  The loose one
asks for the kinds of both values, in this order: null and undefined equal each other and nothing
else; what is compared with a truth value is compared as a number; of arrays and objects no two are
equal, and one of them is compared with anything else by its text; a text is compared with a number
as a number, and all else strictly (`equals_eq`).  No step asks which of the values stands first.

Main statement (`equality_consistent`): both equalities are symmetric, the strict one implies the
loose one, and null and undefined equal nothing but each other.
-/

namespace Scrape

/-! ### Numbers -/

namespace Number

theorem order_swap (p q : Rat) :
    (if q < p then Ordering.lt else if q = p then .eq else .gt) =
      (if p < q then Ordering.lt else if p = q then .eq else .gt).swap := by
  rcases lt_trichotomy p q with h | rfl | h
  · rw [if_pos h, if_neg h.asymm, if_neg h.ne']
    rfl
  · rw [if_neg (lt_irrefl p), if_pos rfl]
    rfl
  · rw [if_pos h, if_neg h.asymm, if_neg h.ne']
    rfl

/-- The order of two numbers, read from the other side. -/
theorem compare?_swap (x y : Number) : compare? y x = (compare? x y).map Ordering.swap := by
  cases x with
  | nan => cases y <;> rfl
  | infinite s =>
    cases y with
    | nan => rfl
    | infinite t => cases s <;> cases t <;> rfl
    | negZero | finite => cases s <;> rfl
  | negZero | finite =>
    cases y with
    | nan => rfl
    | infinite t => cases t <;> rfl
    | negZero | finite => exact congrArg some (order_swap _ _)

/-- Equality of numbers is symmetric. -/
theorem equals_comm (x y : Number) : x.equals y = y.equals x := by
  rw [equals, equals, compare?_swap x y]
  cases compare? x y with
  | none => rfl
  | some o => cases o <;> rfl

end Number

namespace Script.Value

/-! ### Strict equality -/

theorem same_comm (a b : Value) : a.same b = b.same a := by
  cases a with
  | undefined | null | array | object | regex => cases b <;> rfl
  | bool p => cases b with
    | bool q => exact BEq.comm
    | _ => rfl
  | number x => cases b with
    | number y => exact Number.equals_comm x y
    | _ => rfl
  | string s => cases b with
    | string t => exact BEq.comm
    | _ => rfl
  | function i => cases b with
    | function j => exact BEq.comm
    | _ => rfl

/-! ### Loose equality -/

/-- Whether the value is a truth value. -/
def isBool : Value → Bool
  | .bool _ => true
  | _       => false

/-- Whether the value is a number. -/
def isNumber : Value → Bool
  | .number _ => true
  | _         => false

/-- Whether the value is a text. -/
def isText : Value → Bool
  | .string _ => true
  | _         => false

/-- Whether the value is made of others: an array or an object. -/
def isComposite : Value → Bool
  | .array _  => true
  | .object _ => true
  | _         => false

/-- What the value is compared by: an array or an object by its text. -/
def comparand (v : Value) : Value := if v.isComposite then .string v.text else v

/-- Equality of a text with a number, as numbers, and strict equality of all else. -/
def agrees (a b : Value) : Bool :=
  if a.isNumber && b.isText || a.isText && b.isNumber then a.toNumber.equals b.toNumber
  else a.same b

theorem agrees_comm (a b : Value) : a.agrees b = b.agrees a := by
  rw [agrees, agrees, Bool.or_comm, Bool.and_comm a.isText, Bool.and_comm a.isNumber,
    Number.equals_comm, same_comm]

/-- **Loose equality by kinds.**  The kinds of both values decide how they are compared, whichever of
them stands first. -/
theorem equals_eq (a b : Value) : a.equals b =
    if a.isNullish || b.isNullish then a.isNullish && b.isNullish
    else if a.isBool || b.isBool then a.toNumber.equals b.toNumber
    else if a.isComposite && b.isComposite then false
    else a.comparand.agrees b.comparand := by
  cases a with
  | number x => cases b with
    | array | object => exact Number.equals_comm _ x
    | _ => rfl
  | string s => cases b with
    | array | object => exact BEq.comm
    | _ => rfl
  | _ => cases b <;> rfl

theorem equals_comm (a b : Value) : a.equals b = b.equals a := by
  rw [equals_eq, equals_eq b a, Bool.or_comm, Bool.and_comm a.isNullish, Bool.or_comm a.isBool,
    Bool.and_comm a.isComposite, agrees_comm, Number.equals_comm a.toNumber]

/-- Null and undefined equal each other. -/
theorem equals_of_isNullish {a : Value} (h : a.isNullish = true) (b : Value) :
    a.equals b = b.isNullish := by
  rw [equals_eq, h]
  rfl

theorem number_equals_self (q : Rat) : (Number.finite q).equals (.finite q) = true := by
  have hcompare : Number.compare? (.finite q) (.finite q) =
      some (if q < q then .lt else if q = q then .eq else .gt) := rfl
  rw [Number.equals, hcompare, if_neg (lt_irrefl q), if_pos rfl]
  rfl

/-- What is strictly equal is loosely equal. -/
theorem equals_of_same {a b : Value} (h : a.same b = true) : a.equals b = true := by
  cases a with
  | undefined | null => cases b with
    | undefined | null => rfl
    | _ => cases h
  | bool p => cases b with
    | bool q =>
      -- truth values are compared as numbers
      obtain rfl : p = q := beq_iff_eq.mp h
      exact number_equals_self _
    | _ => cases h
  | number => cases b with
    | number => exact h
    | _ => cases h
  | string => cases b with
    | string => exact h
    | _ => cases h
  | function => cases b with
    | function => exact h
    | _ => cases h
  | array | object | regex => cases b <;> cases h

/-- **The equalities of values are consistent.**  For all values, with whatever arrays and objects in
them: loose and strict equality are symmetric, strict equality implies loose equality, and null and
undefined are loosely equal to null and undefined, and to nothing else. -/
theorem equality_consistent (a b : Value) :
    (a.equals b = true ↔ b.equals a = true) ∧
    (a.same b = true ↔ b.same a = true) ∧
    (a.same b = true → a.equals b = true) ∧
    (a.isNullish = true → (a.equals b = true ↔ b.isNullish = true)) := by
  refine ⟨by rw [equals_comm], by rw [same_comm], equals_of_same, fun h => ?_⟩
  rw [equals_of_isNullish h]

/-- A nested array is loosely equal to its text and not strictly, from both sides; null is equal to
neither. -/
theorem equality_consistent_nested :
    (Value.array [.array [.number (.finite 1)], .null]).equals (.string "1,") = true ∧
    (Value.string "1,").equals (.array [.array [.number (.finite 1)], .null]) = true ∧
    (Value.string "1,").equals (.string "1,") = true ∧
    Value.null.equals (.string "") = false := by
  have htext : (Value.array [.array [.number (.finite 1)], .null]).equals (.string "1,") = true := by
    decide
  obtain ⟨hloose, -, -, -⟩ :=
    equality_consistent (.array [.array [.number (.finite 1)], .null]) (.string "1,")
  obtain ⟨-, -, hstrict, -⟩ := equality_consistent (.string "1,") (.string "1,")
  obtain ⟨-, -, -, hnull⟩ := equality_consistent .null (.string "")
  exact ⟨htext, hloose.mp htext, hstrict rfl,
    Bool.eq_false_iff.mpr fun h => Bool.false_ne_true ((hnull rfl).mp h)⟩

end Script.Value

end Scrape
