import Scrape.Rule.Replacement
import Scrape.Script.Method.Regex
import Scrape.Text.Case

/-!
# Script — Method — Texts

The methods of texts.  Places in a text count its characters; a place may be given from the end by
a negative number.
-/

namespace Scrape.Script

/-- An argument, undefined if there is none. -/
def argument (i : Nat) (args : List Value) : Value := (args[i]?).getD .undefined

/-- The text of an argument, empty if there is none. -/
def textArgument (i : Nat) (args : List Value) : String := ((args[i]?).map Value.text).getD ""

/-- The number of an argument, or a number in its place. -/
def numberArgument (i : Nat) (default : Number) (args : List Value) : Number :=
  ((args[i]?).map Value.toNumber).getD default

/-- An argument that is there and not undefined. -/
def given? (i : Nat) (args : List Value) : Option Value := (args[i]?).filter (!·.isUndefined)

/-- The place in a list of some length that a number stands for, counted from the end if it is
negative. -/
def placeOf (x : Number) (len : Nat) : Nat :=
  if x.isNaN then 0
  else if x.lt (.finite 0) then ((Number.ofNat len).add x).toCount
  else min x.toCount len

/-- The place that an argument stands for, or another place if none is given. -/
def placeArgument (i len default : Nat) (args : List Value) : Nat :=
  match given? i args with
  | some v => placeOf v.toNumber len
  | none   => default

/-- The part of a list between two places. -/
def between {α : Type} (a b : Nat) (l : List α) : List α := (l.drop a).take (b - a)

/-- The item at a number that is no less than zero. -/
def itemAt? {α : Type} (x : Number) (l : List α) : Option α :=
  if x.isNaN || x.lt (.finite 0) then none else l[x.toCount]?

/-- The first `n` characters of a text that is repeated without end. -/
def cycled (n : Nat) (fill : List Char) : List Char :=
  (List.replicate (n / fill.length + 1) fill).flatten.take n

/-- A text repeated. -/
def repeatedText (n : Nat) (s : String) : String := if s.isEmpty then "" else n.repeat (· ++ s) ""

/-- The place of the characters before something that was found, or minus one. -/
def foundPlace (found : Option (List Char × List Char)) : Value :=
  match found with
  | some (before, _) => .ofNat before.length
  | none             => .number (.finite (-1))

/-- The part of a text between two places in any order. -/
def substring (cs : List Char) (args : List Value) : List Char :=
  let place (i default : Nat) : Nat :=
    match given? i args with
    | some v => min v.toNumber.toCount cs.length
    | none   => default
  let a := place 0 0
  let b := place 1 cs.length
  between (min a b) (max a b) cs

/-- The pieces of a text, at most as many as are asked for. -/
def splitText (cs : List Char) (args : List Value) : Outcome Value := do
  let pieces ← match given? 0 args with
    | none                       => pure [cs]
    | some (.regex source flags) => (·.split cs) <$> compile source flags
    | some sep                   =>
      let sep := sep.text.toList
      pure (if sep.isEmpty then cs.map ([·]) else Text.splitOn sep cs)
  let pieces := match given? 1 args with
    | some v => pieces.take v.toNumber.toCount
    | none   => pieces
  return .array (pieces.map .ofChars)

/-- The text with something in it replaced by a template. -/
def replaceText (cs : List Char) (all : Bool) (args : List Value) : Outcome Value := do
  let (needle, global) ← Needle.ofValue ((args[0]?).getD (.string ""))
  return .ofChars (needle.replace (all || global) (Rule.template (textArgument 1 args).toList) cs)

/-- The pattern that an argument stands for: a regular expression, or the text of one. -/
def patternArgument (args : List Value) : Outcome Pattern.Compiled :=
  match args.head? with
  | some (.regex source flags) => compile source flags
  | some v                     => compile v.text ""
  | none                       => compile "" ""

/-- The matches of a regular expression in a text: all of them if it asks so, or the groups of the
first. -/
def matchText (cs : List Char) (args : List Value) : Outcome Value := do
  let p ← patternArgument args
  let global := match args.head? with
    | some (.regex _ flags) => flags.toList.contains 'g'
    | _                     => false
  if !global then return matchValue p cs
  match p.allMatches cs with
  | []    => return .null
  | found => return .array (found.map fun m => groupValue (m.groups.head?.join))

/-- The text brought to a length by filling it up at the start or at the end. -/
def padText (s : String) (atStart : Bool) (args : List Value) : Outcome Value := do
  let target := (numberArgument 0 (.finite 0) args).toCount
  if maxStringSize < target then Outcome.fault .stringLength
  let fill := ((given? 1 args).elim " " Value.text).toList
  let len := s.length
  if target ≤ len || fill.isEmpty then return .string s
  let pad := String.ofList (cycled (target - len) fill)
  return .string (if atStart then pad ++ s else s ++ pad)

/-- The text joined with the texts of some values. -/
def concatText (s : String) (args : List Value) : Outcome Value :=
  .string <$> args.foldlM (fun acc v => joined acc v.text) s

/-- The text repeated as often as asked for. -/
def repeatText (s : String) (args : List Value) : Outcome Value :=
  let n := numberArgument 0 (.finite 0) args
  if n.lt (.finite 0) || !n.isFinite || maxStringSize < n.toCount * s.utf8ByteSize then
    .fault .repetitions
  else .ok (.string (repeatedText n.toCount s))

/-- The value of an order. -/
def orderValue : Ordering → Value
  | .lt => .number (.finite (-1))
  | .eq => .number (.finite 0)
  | .gt => .number (.finite 1)

/-- Calls a method of a text. -/
def textMethod (s name : String) (args : List Value) : Outcome Value :=
  match name with
  | "toUpperCase" | "toLocaleUpperCase" => .ok (.ofChars (Text.upper s.toList))
  | "toLowerCase" | "toLocaleLowerCase" => .ok (.ofChars (Text.lower s.toList))
  | "trim"                    => .ok (.ofChars (Text.trim s.toList))
  | "trimStart" | "trimLeft"  => .ok (.ofChars (Text.trimStart s.toList))
  | "trimEnd" | "trimRight"   => .ok (.ofChars (Text.trimEnd s.toList))
  | "toString" | "valueOf"    => .ok (.string s)
  | "charAt"                  =>
    .ok (.ofChars (itemAt? (numberArgument 0 (.finite 0) args) s.toList).toList)
  | "charCodeAt"              =>
    .ok ((itemAt? (numberArgument 0 (.finite 0) args) s.toList).elim (.number .nan) fun c =>
      .ofNat c.toNat)
  | "indexOf"                 => .ok (foundPlace (Text.cut? (textArgument 0 args).toList s.toList))
  | "lastIndexOf"             =>
    .ok (foundPlace (Text.cutLast? (textArgument 0 args).toList s.toList))
  | "includes"                => .ok (.bool (Text.contains (textArgument 0 args).toList s.toList))
  | "startsWith"              =>
    .ok (.bool (Text.startsWith (textArgument 0 args).toList
      (s.toList.drop (placeArgument 1 s.length 0 args))))
  | "endsWith"                => .ok (.bool (Text.endsWith (textArgument 0 args).toList s.toList))
  | "slice"                   =>
    .ok (.ofChars (between (placeArgument 0 s.length 0 args)
      (placeArgument 1 s.length s.length args) s.toList))
  | "substring"               => .ok (.ofChars (substring s.toList args))
  | "substr"                  =>
    let start := placeArgument 0 s.length 0 args
    let count := (given? 1 args).elim s.length fun v => v.toNumber.toCount
    .ok (.ofChars ((s.toList.drop start).take count))
  | "split"                   => splitText s.toList args
  | "replace"                 => replaceText s.toList false args
  | "replaceAll"              => replaceText s.toList true args
  | "match"                   => matchText s.toList args
  | "search"                  =>
    (patternArgument args).map fun p =>
      match p.match? s.toList with
      | some m => .ofNat m.start
      | none   => .number (.finite (-1))
  | "padStart"                => padText s true args
  | "padEnd"                  => padText s false args
  | "repeat"                  => repeatText s args
  | "concat"                  => concatText s args
  | "localeCompare"           => .ok (orderValue (compareText s (textArgument 0 args)))
  | "at"                      =>
    let i := numberArgument 0 (.finite 0) args
    let i := if i.lt (.finite 0) then (Number.ofNat s.length).add i else i
    .ok ((itemAt? i s.toList).elim .undefined fun c => .string (String.singleton c))
  | _                         => .fault (.noMethod "string" name)

end Scrape.Script
