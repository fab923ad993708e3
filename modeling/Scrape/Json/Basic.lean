import Scrape.Keyed
import Scrape.Number.Decimal

/-!
# Json — Basic

Values of JSON.  A number is an integer of 64 bits, signed or unsigned, or a fraction in double
precision; an object keeps its fields in the order in which they were first written, each key once.
-/

namespace Scrape

/-- A number of JSON. -/
inductive JsonNumber where
  /-- An integer between the least signed and the greatest unsigned one of 64 bits. -/
  | integer (value : Int)
  /-- A finite number of double precision. -/
  | fraction (value : Number)
  deriving DecidableEq

/-- A value of JSON. -/
inductive Json where
  | null
  | bool (value : Bool)
  | number (value : JsonNumber)
  | string (value : String)
  | array (items : List Json)
  | object (fields : List (String × Json))

namespace Json

instance : Inhabited Json := ⟨.null⟩

/-- Whether the value is null. -/
def isNull : Json → Bool
  | .null => true
  | _     => false

/-- The value under a key, for an object that has it. -/
def field? (key : String) : Json → Option Json
  | .object fields => Keyed.get? key fields
  | _              => none

/-- The items of an array and of nothing else. -/
def items? : Json → Option (List Json)
  | .array items => some items
  | _            => none

end Json

namespace JsonNumber

/-- The double a number of JSON stands for. -/
def toNumber : JsonNumber → Number
  | .integer i  => Number.ofInt i
  | .fraction x => x

/-- The text of a number. -/
def text : JsonNumber → String
  | .integer i  => String.ofList (Text.decimalInt i)
  | .fraction x => String.ofList x.fractionText

end JsonNumber
end Scrape
