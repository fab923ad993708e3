import Scrape.Document
import Scrape.Rule.IndexSet

/-!
# Chain — Step

The steps of a chain.  A step selects nodes below a node, by a name, a class, an id, a text or a
selector, and may pick some of them by their positions.  A chain applies its steps from left to
right, each to all nodes that the step before has selected.
-/

namespace Scrape.Chain

open Scrape.Rule (IndexSet splitIndexSuffix)
open Scrape.Text (after? before? cutLast? trim words isBlank)

/-! ### Selecting -/

/-- The nodes that a selector gives below a node; below a value of JSON it is a key. -/
def selectCss (n : Node) (css : List Char) : List Node :=
  let css := trim css
  if css.isEmpty then [] else n.named css

/-- The elements below a node. -/
def below (n : Node) : List Html.Element := (n.element?.map (·.descendants)).getD []

/-- The elements below a node that have all of the classes. -/
def selectClass (n : Node) (names : List Char) : List Node :=
  let wanted := (words names).map String.ofList
  if wanted.isEmpty then []
  else ((below n).filter fun e => wanted.all (Css.classes e).contains).map .element

/-- The selector of an id. -/
def idSelector (id : List Char) : List Char :=
  "[id=\"".toList ++ Text.replaceAll ['"'] ['\\', '"'] (trim id) ++ ['"', ']']

/-- The elements below a node with an id. -/
def selectId (n : Node) (id : List Char) : List Node :=
  match Css.parse? (idSelector id) with
  | some selectors => n.select selectors
  | none           => []

/-- The elements below a node whose own text holds a text. -/
def selectText (n : Node) (needle : List Char) : List Node :=
  ((below n).map Node.element).filter fun x => Text.contains needle x.ownText.toList

/-- A selector without the mark of a position at its end, and that position if there is one. -/
def splitPosition (css : List Char) : List Char × Option IndexSet :=
  match before? ":first".toList css, before? ":last".toList css with
  | some rest, _         => (rest, some (.one 0))
  | none,      some rest => (rest, some (.one (-1)))
  | none,      none      =>
    if css.getLast? = some ')' then
      match cutLast? ":eq(".toList css with
      | some (rest, index) =>
        match Text.readInteger? (trim index.dropLast) with
        | some i => (rest, some (.one i))
        | none   => (css, none)
      | none => (css, none)
    else (css, none)

/-- The items that a set picks; all of them without a set. -/
def picked (set? : Option IndexSet) (nodes : List Node) : List Node :=
  match set? with
  | some set => set.apply nodes
  | none     => nodes

/-- The nodes that a step without blanks between its parts selects. -/
def selectOne (n : Node) (step : List Char) : List Node :=
  let (body, index?) := splitIndexSuffix (trim step)
  match after? "tag.".toList body with
  | some name => picked index? (n.named (trim name))
  | none =>
  match after? "class.".toList body with
  | some names => picked index? (selectClass n names)
  | none =>
  match after? "id.".toList body with
  | some id => picked index? (selectId n id)
  | none =>
  match after? "text.".toList body with
  | some needle => picked index? (selectText n needle)
  | none =>
  if body = "children".toList then picked index? n.children
  else
    let (css, position?) := splitPosition body
    picked (index?.or position?) (selectCss n css)

/-! ### Chains -/

/-- Whether two nodes are the same element. -/
def sameElement (a b : Node) : Bool :=
  match a.element?, b.element? with
  | some a, some b => a.samePlace b
  | _,      _      => false

/-- The nodes with each element kept where it comes first. -/
def distinct (nodes : List Node) : List Node :=
  (nodes.foldl (fun kept n => if kept.any (sameElement n) then kept else n :: kept) []).reverse

/-- The nodes that steps select one after the other, each element once. -/
def follow (select : Node → List Char → List Node) (nodes : List Node)
    (steps : List (List Char)) : List Node :=
  steps.foldl (fun nodes step => distinct (nodes.flatMap fun n => select n step)) nodes

/-- The nodes that a step selects.  A step with an exclusion and with blanks is a chain of its
words. -/
def selectStep (n : Node) (step : List Char) : List Node :=
  let step := trim step
  if step.contains '!' && step.any isBlank then follow selectOne [n] (words step)
  else selectOne n step

/-- The nodes that a chain selects below a node. -/
def selectSteps (n : Node) (steps : List (List Char)) : List Node := follow selectStep [n] steps

/-- Whether a step ends with a filter that names one index. -/
def namesOneIndex (step : List Char) : Bool :=
  let (body, index?) := splitIndexSuffix step
  (index?.or (splitPosition body).2).any IndexSet.isSingle

/-! ### Rows -/

/-- The elements right below an element with one of some names. -/
def childrenNamed (names : List String) (e : Html.Element) : List Html.Element :=
  e.children.filter fun c => names.contains c.name

/-- The rows of a list or a table; none of another element. -/
def rows (e : Html.Element) : List Html.Element :=
  match e.name with
  | "ul"    => childrenNamed ["li"] e
  | "ol"    => childrenNamed ["li"] e
  | "tbody" => childrenNamed ["tr"] e
  | "table" => e.children.flatMap fun c =>
    if c.name == "tr" then [c]
    else if ["thead", "tbody", "tfoot"].contains c.name then childrenNamed ["tr"] c
    else []
  | _ => []

/-- The nodes, or the rows of the one list or table that they are. -/
def unwrapped : List Node → List Node
  | [.element e] =>
    match rows e with
    | [] => [.element e]
    | rs => rs.map .element
  | nodes => nodes

end Scrape.Chain
