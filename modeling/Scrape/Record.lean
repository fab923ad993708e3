import Scrape.Evaluate.Basic

/-!
# Record

Records of a document.  A request names a rule for the nodes, one of which makes a record, and rules
for the fields of a record; a record has its fields sorted by name.  All fields of a record share a
session, which is new for each record.
-/

namespace Scrape

/-- A field of records, and the rule that gives it. -/
structure FieldRule where
  name : String
  rule : String
  deriving DecidableEq

/-- A request for records. -/
structure Request where
  list : String
  fields : List FieldRule
  options : Options := {}
  deriving DecidableEq

/-- A record: its fields, sorted by name, each name once. -/
abbrev Record := List (String × String)

namespace Record

/-- The record with a field put in its place; one of the same name is replaced. -/
def insert (name value : String) : Record → Record
  | []          => [(name, value)]
  | (k, v) :: r =>
    if name < k then (name, value) :: (k, v) :: r
    else if name = k then (name, value) :: r
    else (k, v) :: insert name value r

end Record

namespace Request

/-- The record of a node: its fields in the order of the request, of which a later one may read what
an earlier one has put into the session. -/
def record (q : Request) (n : Node) : Record :=
  let step (acc : Record × Session) (f : FieldRule) : Record × Session :=
    let (value, session) := Evaluate.text q.options acc.2 n f.rule.toList
    (acc.1.insert f.name value, session)
  (q.fields.foldl step ([], Session.empty)).1

/-- The records of a document, one for each node of the list rule. -/
def records (q : Request) (d : Document) : List Record :=
  (Evaluate.elements q.options Session.empty d.root q.list.toList).1.map q.record

/-! ### Reading -/

/-- The values of named fields: those of an object, or of an array the items in order, which must
not be more than the names.  Nothing for any other value. -/
def fieldsOf? (names : List String) : Json → Option (String → Option Json)
  | .object fs => some fun name => Keyed.get? name fs
  | .array vs  =>
    if names.length < vs.length then none else some fun name => Keyed.get? name (names.zip vs)
  | _          => none

/-- A text and nothing else. -/
def text? : Json → Option String
  | .string s => some s
  | _         => none

/-- A truth value and nothing else. -/
def bool? : Json → Option Bool
  | .bool b => some b
  | _       => none

/-- A count of 64 bits and nothing else. -/
def count? : Json → Option Nat
  | .number (.integer i) => if 0 ≤ i then some i.toNat else none
  | _                    => none

/-- A text or null. -/
def nullable? : Json → Option (Option String)
  | .null     => some none
  | .string s => some (some s)
  | _         => none

/-- The value of a field, read by `read?`, or what stands for a field that is missing. -/
def orElse {α : Type} (default : α) (read? : Json → Option α) : Option Json → Option α
  | some v => read? v
  | none   => some default

/-- The options of a value; those it does not give are as ever. -/
def options? (v : Json) : Option Options := do
  let field ← fieldsOf?
    ["base_url", "noise_filter", "unwrap_lists", "scripts", "script_step_limit"] v
  let standard : Options := {}
  let baseUrl? ← orElse standard.baseUrl? nullable? (field "base_url")
  let noiseFilter ← orElse standard.noiseFilter bool? (field "noise_filter")
  let unwrapLists ← orElse standard.unwrapLists bool? (field "unwrap_lists")
  let scripts ← orElse standard.scripts bool? (field "scripts")
  let stepLimit ← orElse standard.stepLimit count? (field "script_step_limit")
  pure { baseUrl?, noiseFilter, unwrapLists, scripts, stepLimit }

/-- The field rule of a value. -/
def fieldRule? (v : Json) : Option FieldRule := do
  let field ← fieldsOf? ["name", "rule"] v
  pure ⟨← (field "name").bind text?, ← (field "rule").bind text?⟩

/-- The request of a value. -/
def ofJson? (v : Json) : Option Request := do
  let field ← fieldsOf? ["list", "fields", "options"] v
  let list ← (field "list").bind text?
  let fields ← ((field "fields").bind Json.items?).bind fun vs => vs.mapM fieldRule?
  let options ← orElse {} options? (field "options")
  pure ⟨list, fields, options⟩

end Request
end Scrape
