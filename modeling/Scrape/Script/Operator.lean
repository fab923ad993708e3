import Scrape.Number.Arithmetic
import Scrape.Script.Failure
import Scrape.Script.Value

/-!
# Script — Operator

The operators of scripts on values.
-/

namespace Scrape.Script

/-- A value, or why there is none.  What sees no state takes no steps, so that a script can take care
of its failures. -/
abbrev Outcome := Except Cause

/-- Fails with a fault. -/
def Outcome.fault {α : Type} (f : Fault) : Outcome α := .error ⟨.fault f, rfl⟩

/-- What goes on to a value has a value before. -/
theorem Outcome.exists_of_bind {α β : Type} {o : Outcome α} {f : α → Outcome β} {b : β}
    (h : o >>= f = .ok b) : ∃ a, o = .ok a ∧ f a = .ok b := by
  cases o with
  | error e => cases h
  | ok a => exact ⟨a, rfl, h⟩

/-- The most bytes of a string. -/
def maxStringSize : Nat := 0x1000000

/-- The most items of an array. -/
def maxItems : Nat := 0x100000

/-- The joined texts, if they are not too long together. -/
def joined (s t : String) : Outcome String :=
  if maxStringSize < s.utf8ByteSize + t.utf8ByteSize then .fault .stringTooLong else .ok (s ++ t)

/-- The joined lists, if they are not too long together. -/
def appended (xs ys : List Value) : Outcome (List Value) :=
  if maxItems < xs.length + ys.length then .fault .arrayLength else .ok (xs ++ ys)

/-- The order of texts by their characters. -/
def compareText (s t : String) : Ordering :=
  if s < t then .lt else if s = t then .eq else .gt

namespace Value

/-- Whether the value is added as a text. -/
def addsAsText : Value → Bool
  | .string _ => true
  | .array _  => true
  | .object _ => true
  | .regex .. => true
  | _         => false

/-- The order of two values: of two texts by their characters, of others as numbers. -/
def compare? : Value → Value → Option Ordering
  | .string s, .string t => some (compareText s t)
  | a,         b         => Number.compare? a.toNumber b.toNumber

/-- Whether the value has a property of some name, for an object or an array. -/
def hasKey (key : String) : Value → Outcome Bool
  | .object fs   => .ok (Keyed.has key fs)
  | .array items => .ok ((Text.readCount? key.toList).any (· < items.length))
  | _            => .fault .inNeedsObject

end Value

/-- The result of an operator on numbers. -/
def onNumbers (f : Number → Number → Number) (a b : Value) : Outcome Value :=
  .ok (.number (f a.toNumber b.toNumber))

/-- The result of a comparison. -/
def onOrder (p : Ordering → Bool) (a b : Value) : Outcome Value :=
  .ok (.bool ((a.compare? b).any p))

/-- The result of an operator on two values.  The operators that may leave out their second operand
have none here. -/
def BinaryOp.apply (op : BinaryOp) (a b : Value) : Outcome Value :=
  match op with
  | .add            =>
    if a.addsAsText || b.addsAsText then (joined a.text b.text).map .string
    else onNumbers Number.add a b
  | .sub            => onNumbers Number.sub a b
  | .mul            => onNumbers Number.mul a b
  | .div            => onNumbers Number.div a b
  | .mod            => onNumbers Number.mod a b
  | .pow            => onNumbers Number.pow a b
  | .equal          => .ok (.bool (a.equals b))
  | .notEqual       => .ok (.bool (!a.equals b))
  | .same           => .ok (.bool (a.same b))
  | .notSame        => .ok (.bool (!a.same b))
  | .less           => onOrder (· == .lt) a b
  | .lessEqual      => onOrder (· != .gt) a b
  | .greater        => onOrder (· == .gt) a b
  | .greaterEqual   => onOrder (· != .lt) a b
  | .bitAnd         => onNumbers Number.bitAnd a b
  | .bitOr          => onNumbers Number.bitOr a b
  | .bitXor         => onNumbers Number.bitXor a b
  | .shiftLeft      => onNumbers Number.shiftLeft a b
  | .shiftRight     => onNumbers Number.shiftRight a b
  | .shiftRightZero => onNumbers Number.shiftRightZero a b
  | .isIn           => (b.hasKey a.text).map .bool
  | .instanceOf     => .fault (.unsupported .operator)
  | .and            => .fault (.unsupported .operator)
  | .or             => .fault (.unsupported .operator)
  | .nullish        => .fault (.unsupported .operator)

/-- The result of an operator before a value. -/
def UnaryOp.apply (op : UnaryOp) (v : Value) : Value :=
  match op with
  | .not        => .bool (!v.isTrue)
  | .minus      => .number v.toNumber.neg
  | .plus       => .number v.toNumber
  | .complement => .number v.toNumber.bitNot
  | .typeOf     => .string v.kind
  | .void       => .undefined
  | .delete     => .undefined

end Scrape.Script
