import Scrape.Json.Parser
import Scrape.Json.Printer
import Scrape.Rule.Composite
import Scrape.Rule.Span

/-!
# Json — Path

Paths into a JSON value: keys (`a.b`, `['a']`), indices from either end (`[0]`, `[-1]`), wildcards
(`[*]`, `.*`) and the search for a key at any depth (`$..name`).  A path is a list of steps
(`JsonPath.steps?`), and a step moves a cursor, which holds one value or, after a wildcard, several
(`JsonPath.Cursor.step?`).  A rule in this mode may join paths by operators and may hold templates
`{$.path}`, which are looked up first; what they give becomes part of a path, so that a document
can make a lookup call for itself without end.  `JsonPath.text?` therefore takes a bound on the
nesting of lookups and gives nothing beyond it.
-/

namespace Scrape.JsonPath

open Scrape.Text (after? trim splitOn breakAt)
open Scrape.Rule (Composite Tags spans spanDepth maxTemplateDepth)

/-- A step of a path. -/
inductive Step where
  /-- The field of a key. -/
  | key (name : String)
  /-- The item of an index, counted from the end when negative. -/
  | index (index : Int)
  /-- All items or fields. -/
  | wildcard
  deriving DecidableEq

/-- Where a path has led: to one value, or to several after a wildcard. -/
inductive Cursor where
  | one (value : Json)
  | many (values : List Json)

/-! ### Reading paths -/

/-- Whether the character starts another step. -/
def startsStep (c : Char) : Bool := c = '.' || c = '['

/-- The step written between brackets. -/
def bracketStep (content : List Char) : Step :=
  let content := trim content
  if content = ['*'] then .wildcard
  else match Text.readInteger? content with
  | some i => .index i
  | none   =>
    let isQuote (c : Char) : Bool := c = '\'' || c = '"'
    let inner := ((content.dropWhile isQuote).reverse.dropWhile isQuote).reverse
    .key (String.ofList inner)

/-- The step of a name, if the name is not blank. -/
def nameSteps (name : List Char) : List Step :=
  let name := trim name
  if name = ['*'] then [.wildcard] else if name.isEmpty then [] else [.key (String.ofList name)]

/-- The steps of the rest of a path, after the steps `found`, latest first; nothing when a bracket
is not closed.  `fuel` bounds the length of the path. -/
def stepsFrom? (found : List Step) : Nat → List Char → Option (List Step)
  | 0,        _  => some found.reverse
  | _ + 1,    [] => some found.reverse
  | fuel + 1, c :: s =>
    if c = '.' then stepsFrom? found fuel s
    else if c = '[' then
      match s.span (· ≠ ']') with
      | (_,       [])        => none
      | (content, _ :: rest) => stepsFrom? (bracketStep content :: found) fuel rest
    else
      let (name, rest) := breakAt startsStep (c :: s)
      stepsFrom? ((nameSteps name).reverse ++ found) fuel rest

/-- The steps of a path such as `a.b[0]['c'][*]`. -/
def steps? (path : List Char) : Option (List Step) := stepsFrom? [] path.length path

/-! ### Following paths -/

/-- The item of an array at an index from either end. -/
def itemAt? (index : Int) (value : Json) : Option Json :=
  match value with
  | .array items =>
    let i := if index < 0 then items.length + index else index
    if 0 ≤ i then items[i.toNat]? else none
  | _ => none

/-- The value of a field, if it is there and not null. -/
def present? (name : String) (value : Json) : Option Json :=
  (value.field? name).filter fun v => !v.isNull

/-- What a wildcard makes of one value. -/
def parts : Json → List Json
  | .array items   => items
  | .object fields => fields.map Prod.snd
  | scalar         => [scalar]

namespace Cursor

/-- The step from several values; what has no such part is left out. -/
def stepMany (step : Step) (values : List Json) : List Json :=
  match step with
  | .wildcard => values.flatMap fun v => (v.items?).getD [v]
  | .key name => values.filterMap (present? name)
  | .index i  => values.filterMap (itemAt? i)

/-- The cursor after a step.  A key of a list stands for the key of its items. -/
def step? (step : Step) : Cursor → Option Cursor
  | .many values => some (.many (stepMany step values))
  | .one value =>
    match step with
    | .wildcard => some (.many (parts value))
    | .key name =>
      match value with
      | .array items => some (.many (stepMany (.key name) items))
      | other        => (present? name other).map .one
    | .index i => (itemAt? i value).map .one

/-- The cursor after several steps. -/
def follow? (steps : List Step) (cursor : Cursor) : Option Cursor :=
  steps.foldlM (fun cursor step => cursor.step? step) cursor

/-- The value a cursor stands for. -/
def value : Cursor → Json
  | one v   => v
  | many vs => .array vs

end Cursor

mutual

/-- The value of the first field with a key at any depth, in the order of the text. -/
def findKey? (name : String) : Json → Option Json
  | .array items   => findInItems? name items
  | .object fields => findInFields? name fields
  | _              => none

/-- The first such field in a list of values. -/
def findInItems? (name : String) : List Json → Option Json
  | []      => none
  | v :: vs =>
    match findKey? name v with
    | some found => some found
    | none       => findInItems? name vs

/-- The first such field in a list of fields: a field comes before what its value holds. -/
def findInFields? (name : String) : List (String × Json) → Option Json
  | []           => none
  | (k, v) :: fs =>
    if k = name then some v
    else match findKey? name v with
    | some found => some found
    | none       => findInFields? name fs

end

/-- The path without the mark of the whole value at its start. -/
def withoutRoot (path : List Char) : List Char :=
  match path with
  | '$' :: '.' :: r => r
  | '$' :: r        => r
  | r               => r

/-- The value a path without operators leads to. -/
def resolve? (root : Json) (path : List Char) : Option Json :=
  let path := trim path
  if path = ['$'] || path = "$[*]".toList then
    some (match root with
      | .array items => .array items
      | other        => .array [other])
  else
    match withoutRoot path with
    | '.' :: r =>
      let (name, rest) := breakAt startsStep r
      match findKey? (String.ofList name) root with
      | none       => none
      | some found => (steps? rest).bind fun steps =>
        ((Cursor.one found).follow? steps).map Cursor.value
    | rest => (steps? rest).bind fun steps => ((Cursor.one root).follow? steps).map Cursor.value

/-- The value rules start from: when the value has a string `body` that holds a JSON object, the
fields of that object are merged in. -/
def unwrapBody (value : Json) : Json :=
  match value with
  | .object fields =>
    match Keyed.get? "body" fields with
    | some (.string body) =>
      match Json.parse? body.toList with
      | some (.object inner) => .object (Keyed.putAll fields inner)
      | _                    => value
    | _ => value
  | _ => value

/-! ### Rules -/

/-- The items of a path without operators: those of an array, else the one value, none for null. -/
def leafItems (root : Json) (path : List Char) : List Json :=
  match resolve? root path with
  | some (.array items) => items
  | some .null          => []
  | none                => []
  | some other          => [other]

/-- The values a rule leads to. -/
def items (root : Json) (rule : List Char) : List Json := Rule.composed (leafItems root) rule

/-- The tags of a template in a path. -/
def templateTags : Tags := ⟨['\x7b', '$', '.'], ['\x7d']⟩

/-- The results that are not empty, one a line. -/
def joinedLines (texts : List String) : String :=
  "\n".intercalate (texts.filter fun t => !t.isEmpty)

mutual

/-- The text of a tree of rules, from the text of the rules at its leaves, which may be missing. -/
def treeText? (root : Json) (leaf : List Char → Option String) : Composite.Tree → Option String
  | .plain rule    => leaf rule
  | .join op parts =>
    match op with
    | .all        => (allTexts? root leaf parts).map joinedLines
    | .any        => firstText? root leaf parts
    | .interleave =>
      some (Json.output (.array (Composite.combine .interleave
        (Composite.Tree.resultsOfAll (leafItems root) parts))))

/-- The texts of several trees. -/
def allTexts? (root : Json) (leaf : List Char → Option String) :
    List Composite.Tree → Option (List String)
  | []      => some []
  | t :: ts => do
    let text ← treeText? root leaf t
    let texts ← allTexts? root leaf ts
    pure (text :: texts)

/-- The first text that is not empty; the trees after it are not looked at. -/
def firstText? (root : Json) (leaf : List Char → Option String) :
    List Composite.Tree → Option String
  | []      => some ""
  | t :: ts => do
    let text ← treeText? root leaf t
    if text.isEmpty then firstText? root leaf ts else pure text

end

mutual

/-- The text of a rule, with lookups nested to at most `depth`; nothing beyond that. -/
def text? (root : Json) : Nat → List Char → Option String
  | 0,         _    => none
  | depth + 1, rule =>
    let rule := trim rule
    if rule.isEmpty then some ""
    else
      treeText? root
        (fun leaf => do
          match ← substitute? root depth leaf with
          | some text => pure (String.ofList text)
          | none      => pure ((resolve? root leaf).map Json.output |>.getD ""))
        (Composite.tree rule)

/-- The text with its templates looked up, the inner ones first; of a text without templates
nothing, inside. -/
def substitute? (root : Json) : Nat → List Char → Option (Option (List Char))
  | 0,         _    => none
  | depth + 1, text =>
    let found := spans templateTags text
    if !found.hasSpan then some none
    else (found.fillM templateTags fun inner =>
      if maxTemplateDepth ≤ spanDepth templateTags inner then some none
      else do
        let path := (← substitute? root depth inner).getD inner
        let value ← text? root depth ('$' :: '.' :: path)
        pure (some value.toList)).map some

end

/-- The depth to which lookups nest, past any depth at which they could be carried out. -/
def maxLookups : Nat := 0x10000

/-- The text of a rule; a rule whose lookups nest without end has none. -/
def text (root : Json) (rule : List Char) : String := (text? root maxLookups rule).getD ""

end Scrape.JsonPath
