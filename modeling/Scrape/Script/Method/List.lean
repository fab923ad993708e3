import Scrape.Script.Method.Text

/-!
# Script — Method — Lists

The methods of arrays that call no function.  A method that changes its array gives the changed
array along with its value.
-/

namespace Scrape.Script

/-- What a method gives: its value, and the array it is called on if it changes that. -/
structure Reply where
  value : Value
  changed? : Option Value

namespace Reply

/-- The reply of a method that changes nothing. -/
def plain (v : Value) : Reply := ⟨v, none⟩

/-- The reply of a method that gives a value and changes its array. -/
def changing (v : Value) (items : List Value) : Reply := ⟨v, some (.array items)⟩

end Reply

/-- The text of an item in a joined list: nothing for null and undefined. -/
def itemText (v : Value) : String := if v.isNullish then "" else v.text

/-- The texts of a list joined by a separator. -/
def joinItems (items args : List Value) : Outcome Value :=
  let separator := (given? 0 args).elim "," Value.text
  let texts := items.map itemText
  let between := separator.utf8ByteSize * (texts.length - 1)
  let size := texts.foldl (fun n t => n + t.utf8ByteSize) between
  if maxStringSize < size then .fault .stringTooLong
  else .ok (.string (separator.intercalate texts))

/-- The list with the items of arrays and with other values at its end. -/
def concatItems (items args : List Value) : Outcome (List Value) :=
  args.foldlM (fun acc v =>
    match v with
    | .array more => appended acc more
    | v           => appended acc [v]) items

/-- Calls a method of an array that calls no function, if there is one of that name. -/
def listMethod? (items : List Value) (name : String) (args : List Value) :
    Option (Outcome Reply) :=
  match name with
  | "push"     => some ((appended items args).map fun l => .changing (.ofNat l.length) l)
  | "pop"      => some (.ok (.changing (items.getLast?.getD .undefined) items.dropLast))
  | "shift"    => some (.ok (.changing (items.head?.getD .undefined) items.tail))
  | "unshift"  => some ((appended args items).map fun l => .changing (.ofNat l.length) l)
  | "reverse"  => some (.ok (.changing (.array items.reverse) items.reverse))
  | "join"     => some ((joinItems items args).map .plain)
  | "toString" => some (.ok (.plain (.string (Value.array items).text)))
  | "slice"    =>
    some (.ok (.plain (.array (between (placeArgument 0 items.length 0 args)
      (placeArgument 1 items.length items.length args) items))))
  | "indexOf"  =>
    let place := items.findIdx? (·.same (argument 0 args))
    some (.ok (.plain (place.elim (.number (.finite (-1))) .ofNat)))
  | "includes" => some (.ok (.plain (.bool (items.any (·.same (argument 0 args))))))
  | "concat"   => some ((concatItems items args).map fun l => .plain (.array l))
  | _          => none

end Scrape.Script
