import Scrape.Chain.Reading
import Scrape.Rule.Composite
import Scrape.Rule.Mode

/-!
# Chain — Select

The nodes (`elements`) and the texts (`strings`) that a rule of selection steps gives.  The steps
stand between `@`; where texts are wanted, the last one names what to read.  A rule tagged as a CSS
selector is taken as it is up to its last `@`.
-/

namespace Scrape.Chain

open Scrape.Rule (composed isCssTagged split withoutTag)
open Scrape.Text (contains startsWith trim)

/-- The parts of a rule between `@`. -/
def parts (rule : List Char) : List (List Char) := split [['@']] rule

/-- Parts as they are written in a rule. -/
def joined (parts : List (List Char)) : List Char := ['@'].intercalate parts

/-- Whether a part can only be a step that selects. -/
def isStep (part : List Char) : Bool :=
  ["tag.", "class.", "id.", "text.", "children"].any (fun p => startsWith p.toList part)
    || part.any (['.', '#', '[', '>', ' ', '*', '~', '+', '!'].contains ·)
    || contains ":eq(".toList part

/-- What the last part of a rule reads, unless it selects.  A part that stands alone reads what it
names, or an attribute that the node has. -/
def lastReading? (n : Node) (last : List Char) (alone : Bool) : Option Reading :=
  let last := trim last
  match Reading.ofName? last with
  | some r => some r
  | none   =>
    if isStep last then none
    else if alone && (n.attr? (String.ofList last)).isNone then none
    else some (.attr (String.ofList last))

/-- The parts of a rule without a last one that names what to read. -/
def withoutReading (parts : List (List Char)) : List (List Char) :=
  match parts.getLast? with
  | some last =>
    if 1 < parts.length && (Reading.ofName? (trim last)).isSome then parts.dropLast else parts
  | none => parts

/-- The nodes that a rule without operators selects. -/
def leafElements (options : Options) (n : Node) (rule : List Char) : List Node :=
  let parts := withoutReading (parts (withoutTag rule))
  let selected :=
    if isCssTagged rule then selectCss n (joined parts) else selectSteps n parts
  if options.unwrapLists then unwrapped selected else selected

/-- The nodes that a rule selects below a node. -/
def elements (options : Options) (n : Node) (rule : List Char) : List Node :=
  composed (leafElements options n) rule

/-- What a rule without operators selects: the nodes, what to read from them, and the last step. -/
structure Selection where
  nodes : List Node
  reading : Reading
  lastStep : List Char

/-- What a rule without operators selects below a node. -/
def selection? (n : Node) (rule : List Char) : Option Selection :=
  let rest := withoutTag rule
  let parts := parts rest
  if isCssTagged rule then
    match parts.getLast? with
    | some last =>
      if parts.length < 2 then some ⟨selectCss n rest, .text, rest⟩
      else
        let css := joined parts.dropLast
        some ⟨selectCss n css, .ofName last, css⟩
    | none => some ⟨selectCss n rest, .text, rest⟩
  else
    parts.getLast?.map fun last =>
      let reading? := lastReading? n last (parts.length = 1)
      let steps := if reading?.isSome then parts.dropLast else parts
      ⟨selectSteps n steps, reading?.getD .text, steps.getLast?.getD []⟩

/-- The texts that a rule without operators gives.  A link that the rule aims at alone is the first
that there is. -/
def leafStrings (options : Options) (n : Node) (rule : List Char) : List String :=
  match selection? n rule with
  | none   => []
  | some s =>
    let values := (s.nodes.filterMap (s.reading.read? options)).filter fun v => !v.isEmpty
    if s.reading.isLink && (s.nodes.length = 1 || namesOneIndex s.lastStep) then values.take 1
    else values

/-- The texts that a rule gives below a node, none of which is empty. -/
def strings (options : Options) (n : Node) (rule : List Char) : List String :=
  composed (leafStrings options n) rule

/-- The text that a rule gives: its texts, one a line. -/
def text (options : Options) (n : Node) (rule : List Char) : String :=
  "\n".intercalate (strings options n rule)

end Scrape.Chain
