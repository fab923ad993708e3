import Scrape.Json.Parser
import Scrape.Script.Method.Text
import Scrape.Text.Percent

/-!
# Script — Method — Globals

The functions that scripts find without declaring them, alone or in a namespace, save those that
use the session.
-/

namespace Scrape.Script

/-- An array of undefined items, as many as a number says. -/
def blankArray (n : Number) : Outcome Value :=
  if n.lt (.finite 0) || (Number.ofNat maxItems).lt n || !n.isIntegral then .fault .arrayLength
  else .ok (.array (List.replicate n.toCount .undefined))

/-- The regular expression that arguments stand for. -/
def regexOfArguments (args : List Value) : Value :=
  let source := match argument 0 args with
    | .regex source _ => source
    | v               => v.text
  let flags := match argument 1 args with
    | .undefined => ""
    | .null      => ""
    | v          => v.text
  .regex source flags

/-- Calls a function that has no namespace. -/
def globalFunction (name : String) (args : List Value) : Outcome Value :=
  let first := argument 0 args
  match name with
  | "parseInt" =>
    let radix? := ((args[1]?).map Value.toNumber).filter (!·.isZero)
    .ok (.number (Number.leadingInteger first.text.toList radix?))
  | "parseFloat" => .ok (.number (Number.leadingFraction first.text.toList))
  | "String"     => .ok (.string (textArgument 0 args))
  | "Number"     => .ok (.number (numberArgument 0 (.finite 0) args))
  | "Boolean"    => .ok (.bool first.isTrue)
  | "isNaN"      => .ok (.bool first.toNumber.isNaN)
  | "isFinite"   => .ok (.bool first.toNumber.isFinite)
  | "encodeURIComponent" => .ok (.ofChars (Text.percentEncoded first.text))
  | "decodeURIComponent" =>
    match Text.percentDecoded? first.text with
    | some s => .ok (.string s)
    | none   => .fault .malformedUri
  | "RegExp"     => .ok (regexOfArguments args)
  | "Array"      =>
    match args with
    | [.number n] => blankArray n
    | _           => .ok (.array args)
  | "Object"     => .ok (.object [])
  | _            => .fault (.notDefined name)

/-- Calls a function on numbers; `none` if there is none of that name. -/
def mathFunction? (name : String) (args : List Value) : Option Number :=
  let x := numberArgument 0 .nan args
  match name with
  | "floor" => some x.floor
  | "ceil"  => some x.ceil
  | "round" => some x.round
  | "trunc" => some x.trunc
  | "abs"   => some x.abs
  | "sqrt"  => some x.sqrt
  | "sign"  => some x.sign
  | "pow"   => some (x.pow (numberArgument 1 .nan args))
  | "max"   => some ((args.map Value.toNumber).foldl Number.max (.infinite true))
  | "min"   => some ((args.map Value.toNumber).foldl Number.min (.infinite false))
  | _       => none

/-- The constants of mathematics. -/
def mathConstant (name : String) : Value :=
  match name with
  | "PI" => .number (Number.ofBits 0x400921FB54442D18)
  | "E"  => .number (Number.ofBits 0x4005BF0A8B145769)
  | _    => .undefined

/-- The keys of a value: those of an object, and the places of an array. -/
def keysOf : Value → List Value
  | .object fs   => fs.map fun f => .string f.1
  | .array items => (List.range items.length).map fun i => .ofChars (Text.decimal i)
  | _            => []

/-- The values under the keys of a value. -/
def valuesOf : Value → List Value
  | .object fs   => fs.map Prod.snd
  | .array items => items
  | _            => []

/-- The characters of code points, without the numbers that are none. -/
def textOfCodes (args : List Value) : List Char :=
  args.filterMap fun v =>
    let n := (Number.saturate 0 0xFFFFFFFF v.toNumber).toNat
    if n.isValidChar then some (Char.ofNat n) else none

/-- The JSON text of a value, over several lines if asked so. -/
def stringify (args : List Value) : Value :=
  match (argument 0 args).toJson? with
  | none   => .undefined
  | some j =>
    let pretty := match argument 2 args with
      | .number n => !n.isNaN && !n.lt (.finite 1)
      | .string s => !s.isEmpty
      | _         => false
    .string (if pretty then j.prettyText else j.text)

/-- The names that have functions of their own. -/
def isNamespace (name : String) : Bool :=
  ["context", "java", "console", "JSON", "Math", "Object", "Array", "Number", "String"].contains
    name

/-- Calls a function of a namespace. -/
def namespaceFunction (space name : String) (args : List Value) : Outcome Value :=
  let first := argument 0 args
  match space, name with
  | "JSON", "parse" =>
    match Json.parse? first.text.toList with
    | some j => .ok (.ofJson j)
    | none   => .error ⟨.json, rfl⟩
  | "JSON", "stringify"     => .ok (stringify args)
  | "Object", "keys"        => .ok (.array (keysOf first))
  | "Object", "values"      => .ok (.array (valuesOf first))
  | "Array", "isArray"      =>
    .ok (.bool (match first with
      | .array _ => true
      | _        => false))
  | "Array", "from"         => .ok (.array (first.items?.getD []))
  | "Number", "isInteger"   =>
    .ok (.bool (match first with
      | .number n => n.isIntegral
      | _         => false))
  | "Number", "parseInt"    => globalFunction name args
  | "Number", "parseFloat"  => globalFunction name args
  | "String", "fromCharCode" => .ok (.ofChars (textOfCodes args))
  | space, name =>
    match if space = "Math" then mathFunction? name args else none with
    | some x => .ok (.number x)
    | none   => .fault (.notFunction (space ++ "." ++ name))

/-- Calls a method of a number. -/
def numberMethod (x : Number) (name : String) (args : List Value) : Outcome Value :=
  match name with
  | "toFixed"  =>
    let places := (Number.saturate 0 100 (numberArgument 0 (.finite 0) args)).toNat
    .ok (.ofChars (x.fixedText places))
  | "toString" =>
    let radix := (Number.saturate 0 0xFFFFFFFF (numberArgument 0 (.finite 10) args)).toNat
    .ok (.ofChars (x.radixText radix))
  | _          => .fault (.noMethod "number" name)

/-- Calls a method of a regular expression. -/
def regexMethod (source flags name : String) (args : List Value) : Outcome Value := do
  let p ← compile source flags
  let s := (textArgument 0 args).toList
  match name with
  | "test"     => return .bool (p.match? s).isSome
  | "exec"     => return matchValue p s
  | "toString" => return .string (Value.regexText source flags)
  | _          => Outcome.fault (.noMethod "regex" name)

end Scrape.Script
