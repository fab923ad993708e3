import Scrape.Json.Printer
import Scrape.Number.Reading
import Scrape.Script.Syntax

/-!
# Script — Value

The values of scripts.  Values are copied and never shared: an array or an object belongs to the
variable that holds it.  The module gives their truth, numbers and texts, their form in JSON, their
properties and their two equalities.
-/

namespace Scrape.Script

/-- A value of a script. -/
inductive Value where
  | undefined
  | null
  | bool (value : Bool)
  | number (value : Number)
  | string (value : String)
  | array (items : List Value)
  /-- An object, its properties in the order in which they were first set. -/
  | object (fields : List (String × Value))
  | regex (source flags : String)
  /-- A function; each evaluation of a function expression gives an `id` of its own. -/
  | function (id : Nat) (params : List Binding) (body : Body)

namespace Value

instance : Inhabited Value := ⟨.undefined⟩

/-- The value of a natural number. -/
def ofNat (n : Nat) : Value := .number (Number.ofNat n)

/-- The value of a text. -/
def ofChars (s : List Char) : Value := .string (String.ofList s)

/-- The characters of a text, one value each. -/
def characters (s : String) : List Value := s.toList.map fun c => .string (String.singleton c)

/-- Whether the value counts as true. -/
def isTrue : Value → Bool
  | .undefined | .null => false
  | .bool b            => b
  | .number x          => !x.isZero && !x.isNaN
  | .string s          => !s.isEmpty
  | _                  => true

/-- Whether the value is null or undefined. -/
def isNullish : Value → Bool
  | .undefined | .null => true
  | _                  => false

/-- Whether the value is undefined. -/
def isUndefined : Value → Bool
  | .undefined => true
  | _          => false

/-- The name of the kind of the value. -/
def kind : Value → String
  | .undefined    => "undefined"
  | .bool _       => "boolean"
  | .number _     => "number"
  | .string _     => "string"
  | .function ..  => "function"
  | .null         => "object"
  | .array _      => "object"
  | .object _     => "object"
  | .regex ..     => "object"

/-! ### Texts and numbers -/

/-- The text of a regular expression. -/
def regexText (source flags : String) : String := "/" ++ source ++ "/" ++ flags

mutual

/-- The text of the value. -/
def text : Value → String
  | .undefined          => "undefined"
  | .null               => "null"
  | .bool b             => if b then "true" else "false"
  | .number x           => String.ofList x.text
  | .string s           => s
  | .array items        => ",".intercalate (itemTexts [] items)
  | .object _           => "[object Object]"
  | .regex source flags => regexText source flags
  | .function ..        => "function () \x7b [native code] \x7d"

/-- The texts of the items of an array, after the texts `acc`, which are held in reverse.  What is
null or undefined has an empty text. -/
def itemTexts (acc : List String) : List Value → List String
  | []      => acc.reverse
  | v :: vs => itemTexts ((if v.isNullish then "" else v.text) :: acc) vs

end

/-- The number of the value.  An array of at most one item has the number of its text. -/
def toNumber : Value → Number
  | .undefined => .nan
  | .null      => .finite 0
  | .bool b    => .finite (if b then 1 else 0)
  | .number x  => x
  | .string s  => Number.ofText s.toList
  | .array []  => .finite 0
  | .array [v] => Number.ofText (Value.array [v]).text.toList
  | _          => .nan

/-! ### JSON -/

/-- The largest magnitude below which an integer is written as one in JSON. -/
def maxJsonInteger : Rat := 9000000000000000

/-- The form of a number in JSON: an integer if it is one and small, null if it is infinite or not
a number. -/
def numberToJson (x : Number) : Json :=
  match x.toRat? with
  | some q =>
    if q.den = 1 ∧ -maxJsonInteger < q ∧ q < maxJsonInteger then .number (.integer q.num)
    else .number (.fraction x)
  | none => .null

mutual

/-- The form of the value in JSON, if it has one. -/
def toJson? : Value → Option Json
  | .undefined    => none
  | .function ..  => none
  | .null         => some .null
  | .bool b       => some (.bool b)
  | .number x     => some (numberToJson x)
  | .string s     => some (.string s)
  | .array items  => some (.array (itemsToJson [] items))
  | .object fs    => some (.object (fieldsToJson [] fs))
  | .regex ..     => some (.object [])

/-- The forms of items in JSON, after the forms `acc`, which are held in reverse.  An item without
a form is null. -/
def itemsToJson (acc : List Json) : List Value → List Json
  | []      => acc.reverse
  | v :: vs => itemsToJson (v.toJson?.getD .null :: acc) vs

/-- The forms of properties in JSON, put under their keys after the forms `acc`.  A property without
a form is left out. -/
def fieldsToJson (acc : List (String × Json)) : List (String × Value) → List (String × Json)
  | []           => acc
  | (k, v) :: fs =>
    match v.toJson? with
    | some j => fieldsToJson (Keyed.put k j acc) fs
    | none   => fieldsToJson acc fs

end

mutual

/-- The value of a JSON value. -/
def ofJson : Json → Value
  | .null         => .null
  | .bool b       => .bool b
  | .number n     => .number n.toNumber
  | .string s     => .string s
  | .array items  => .array (itemsOfJson [] items)
  | .object fs    => .object (fieldsOfJson [] fs)

/-- The values of JSON values, after the values `acc`, which are held in reverse. -/
def itemsOfJson (acc : List Value) : List Json → List Value
  | []      => acc.reverse
  | j :: js => itemsOfJson (ofJson j :: acc) js

/-- The properties of the fields of a JSON object, after the properties `acc`, which are held in
reverse. -/
def fieldsOfJson (acc : List (String × Value)) : List (String × Json) → List (String × Value)
  | []           => acc.reverse
  | (k, j) :: fs => fieldsOfJson ((k, ofJson j) :: acc) fs

end

/-- Whether the value holds no other values and is no function. -/
def isPlain : Value → Bool
  | .array _     => false
  | .object _    => false
  | .function .. => false
  | _            => true

/-- The text of what has a form in JSON. -/
def jsonText (v : Value) : String := (v.toJson?.map Json.text).getD ""

/-- The value as a rule hands it out: nothing for null, undefined and functions, one item a line
for an array of plain values, the text of its JSON form for other arrays and for objects. -/
def output : Value → String
  | .undefined   => ""
  | .null        => ""
  | .function .. => ""
  | .array items =>
    if items.all isPlain then "\n".intercalate ((items.filter (!isNullish ·)).map text)
    else (Value.array items).jsonText
  | .object fs   => (Value.object fs).jsonText
  | v            => v.text

/-! ### Properties -/

/-- How far past the end of an array an item may be set. -/
def maxGap : Nat := 10000

/-- The value of a property, undefined if there is none. -/
def get (key : String) : Value → Value
  | .string s =>
    if key = "length" then .ofNat s.length
    else ((Text.readCount? key.toList).bind fun i => s.toList[i]?).elim .undefined
      fun c => .string (String.singleton c)
  | .array items =>
    if key = "length" then .ofNat items.length
    else ((Text.readCount? key.toList).bind fun i => items[i]?).getD .undefined
  | .object fs => (Keyed.get? key fs).getD .undefined
  | .regex source flags =>
    if key = "source" then .string source
    else if key = "flags" then .string flags
    else if key = "global" then .bool (flags.toList.contains 'g')
    else .undefined
  | _ => .undefined

/-- The items brought to a length, with undefined ones at the end. -/
def resized (n : Nat) (items : List Value) : List Value :=
  items.take n ++ List.replicate (n - items.length) .undefined

/-- The items with one of them set, which may lie past the end. -/
def setItem (i : Nat) (value : Value) (items : List Value) : List Value :=
  if i < items.length then items.set i value else resized i items ++ [value]

/-- The value with a property set, if it can hold it. -/
def set? (container : Value) (key : String) (value : Value) : Option Value :=
  match container with
  | .array items =>
    match Text.readCount? key.toList with
    | some i =>
      if items.length + maxGap < i then none else some (.array (setItem i value items))
    | none =>
      if key = "length" then
        match value.toNumber.toRat? with
        | some n =>
          if 0 ≤ n ∧ n ≤ ((items.length + maxGap : Nat) : Rat) then
            some (.array (resized (n.num.tdiv n.den).toNat items))
          else none
        | none => none
      else none
  | .object fs => some (.object (Keyed.put key value fs))
  | _ => none

/-- The items of the value, if it is a list of some kind. -/
def items? : Value → Option (List Value)
  | .array items => some items
  | .string s    => some (characters s)
  | _            => none

/-! ### Equality -/

/-- Whether the values are of one kind and equal.  Arrays, objects and regular expressions equal
nothing, because they are copies. -/
def same : Value → Value → Bool
  | .undefined,     .undefined     => true
  | .null,          .null          => true
  | .bool a,        .bool b        => a == b
  | .number a,      .number b      => a.equals b
  | .string a,      .string b      => a == b
  | .function a .., .function b .. => a == b
  | _,              _              => false

/-- Equality of a text with a value. -/
def textEquals (s : String) : Value → Bool
  | .string t => s == t
  | .number x => (Number.ofText s.toList).equals x
  | _         => false

/-- Equality after conversion: null and undefined equal each other and nothing else; truth values
are compared as numbers, and so are texts with numbers; an array or object is compared with a text
or number by its text. -/
def equals (a b : Value) : Bool :=
  if a.isNullish || b.isNullish then a.isNullish && b.isNullish
  else
    match a, b with
    | .number x, .string t => x.equals (Number.ofText t.toList)
    | .string s, .number y => (Number.ofText s.toList).equals y
    | .bool _,   b         => a.toNumber.equals b.toNumber
    | a,         .bool _   => a.toNumber.equals b.toNumber
    | .array _,  .string _ => textEquals a.text b
    | .array _,  .number _ => textEquals a.text b
    | .object _, .string _ => textEquals a.text b
    | .object _, .number _ => textEquals a.text b
    | .string _, .array _  => textEquals b.text a
    | .string _, .object _ => textEquals b.text a
    | .number _, .array _  => textEquals b.text a
    | .number _, .object _ => textEquals b.text a
    | a,         b         => a.same b

end Value

end Scrape.Script
