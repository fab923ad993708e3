import Scrape.Chain.Select
import Scrape.Evaluate.Directive
import Scrape.Evaluate.Template
import Scrape.Json.Path
import Scrape.Script.Evaluate
import Scrape.XPath.Select

/-!
# Evaluate — Basic

What a rule gives on a node: a text (`text`) or nodes (`elements`).  Templates are filled in first,
then the directives on the session are carried out, then the rule is evaluated in its mode, and its
tail rewrites the result.  A rule with scripts is a row of rules and scripts, each working on the
result of the one before.

Rules hold rules, and what a template or a directive takes from a document may hold further ones, so
that a document can keep an evaluation going without end.  The step of the evaluation is therefore
given the evaluation of the rules within (`Inner`), to a depth beyond which there is no result.
-/

namespace Scrape.Evaluate

open Scrape.Rule (Segment hasScript maxTemplateDepth mode segments spanDepth spans withoutTag)
open Scrape.Text (trim)

/-- An evaluation: it reads and writes the session, and may be without a result. -/
abbrev Eval := StateT Session Option

/-- The evaluation of a rule within a rule, to a text. -/
abbrev Inner := Node → List Char → Eval String

/-- The text of a rule of selection, without templates, directives and scripts. -/
def selectText (options : Options) (n : Node) (rule : List Char) : String :=
  match mode rule n.isJson with
  | .json =>
    match n.json? with
    | some v => JsonPath.text (JsonPath.unwrapBody v) (withoutTag rule)
    | none   => ""
  | .xpath => XPath.text n rule
  | _      => Chain.text options n rule

/-- The nodes of a rule of selection, without templates, directives and scripts. -/
def selectElements (options : Options) (n : Node) (rule : List Char) : List Node :=
  match mode rule n.isJson with
  | .json =>
    match n.json? with
    | some v => Node.ofValues (JsonPath.items (JsonPath.unwrapBody v) (withoutTag rule))
    | none   => []
  | .xpath => XPath.elements n rule
  | _      => Chain.elements options n rule

/-- Runs a script on a value, and gives what it gives, or nothing if it fails.  What it puts into
the session before it fails stays there. -/
def runScript (options : Options) (source : List Char) (base : Script.Value) :
    Eval (Option Script.Value) := do
  let (outcome, session) :=
    Script.run source base options.baseUrl? (← get) options.stepLimit
  set session
  pure outcome.toOption

section

variable (options : Options) (inner : Inner) (n : Node)

/-- What stands for a template; nothing if the template stays as it is. -/
def resolveTemplate (body : List Char) : Eval (Option (List Char)) := do
  let body := trim body
  if maxTemplateDepth ≤ spanDepth templateTags body then return none
  match (← get).get? (String.ofList body) with
  | some value => return some value.toList
  | none       =>
    if isRule body then return some (← inner n body).toList
    else if !options.scripts then return none
    else
      let value? ← runScript options body (.string n.outer)
      return value?.map fun v => v.output.toList

/-- Carries out the directives that put. -/
def putAll : List (List Char × List (String × List Char)) → Eval Unit
  | []               => pure ()
  | (_, pairs) :: ps => do
    for (key, rule) in pairs do
      let value ← inner n rule
      modify fun s => s.put key value
    putAll ps

/-- The text of a rule without templates and scripts. -/
def evalDirectives (rule : List Char) : Eval String := do
  let p := puts rule
  putAll inner n p.directives
  let (main, suffix) := splitSuffix (withGets (← get) p.rule)
  let main := trim main
  if main.isEmpty then pure ""
  else pure (suffix.apply (selectText options n main))

/-- The text of a rule without scripts. -/
def evalPlain (rule : List Char) : Eval String := do
  let rule := trim rule
  if rule.isEmpty then return ""
  let found := spans templateTags rule
  if found.hasSpan then
    let filled ← found.fillM templateTags (resolveTemplate options inner n)
    if selects rule then evalDirectives options inner n filled
    else
      let (text, suffix) := splitSuffix filled
      return suffix.apply (String.ofList (trim text))
  else evalDirectives options inner n rule

/-- The value after a segment of a rule, from the value before it. -/
def evalSegment (before? : Option Script.Value) : Segment → Eval Script.Value
  | .rule text => do
    let node := match before? with
      | some v => (Document.ofText v.output).root
      | none   => n
    return .string (← evalPlain options inner node text)
  | .script source => do
    let base := before?.getD (.string n.outer)
    if options.scripts then return (← runScript options source base).getD base
    else return base

/-- The value of segments, each of which works on the value before it. -/
def evalSegments (segments : List Segment) : Eval Script.Value := do
  let value? ← segments.foldlM (fun before? s => some <$> evalSegment options inner n before? s)
    (none : Option Script.Value)
  return value?.getD .undefined

/-- The text of a rule, from the evaluation of the rules within it. -/
def evalRule (rule : List Char) : Eval String :=
  if hasScript rule then do
    return (← evalSegments options inner n (segments rule)).output
  else evalPlain options inner n rule

end

/-- The text of a rule, with rules nested to at most `depth`; nothing beyond that. -/
def evalText (options : Options) : Nat → Inner
  | 0         => fun _ _ => failure
  | depth + 1 => evalRule options (evalText options depth)

/-- The depth to which rules nest, past any depth at which they could be evaluated. -/
def maxRuleDepth : Nat := 0x10000

/-- The text of a rule, and the session afterwards; nothing if its rules nest without end. -/
def text? (options : Options) (session : Session) (n : Node) (rule : List Char) :
    Option (String × Session) :=
  (evalText options maxRuleDepth n rule).run session

/-- The text of a rule, and the session afterwards.  A rule whose rules nest without end has no
text. -/
def text (options : Options) (session : Session) (n : Node) (rule : List Char) :
    String × Session :=
  (text? options session n rule).getD ("", session)

/-- The nodes that the value of a script stands for: the items of an array, or one node.  The text
of an array or of an object stands for it. -/
def scriptNodes (value : Script.Value) : List Node :=
  let json? : Option Json := match value with
    | .string text =>
      let trimmed := trim text.toList
      match Json.parse? trimmed with
      | some (.array items)   => some (.array items)
      | some (.object fields) => some (.object fields)
      | _                     => if trimmed.isEmpty then none else some (.string text)
    | other => other.toJson?
  match json? with
  | some (.array items) => Node.ofValues items
  | some .null          => []
  | some other          => [.json other 0]
  | none                => []

/-- The mark of a list rule in front of it, if it reverses the nodes, and the rule without it. -/
def listMark (rule : List Char) : Bool × List Char :=
  match trim rule with
  | '-' :: r => (true, r)
  | '+' :: r => (false, r)
  | r        => (false, r)

/-- The nodes of a rule, and the session afterwards; nothing if its rules nest without end.  A
hyphen in front of the rule reverses them, and a plus sign means nothing. -/
def elements? (options : Options) (session : Session) (n : Node) (rule : List Char) :
    Option (List Node × Session) :=
  let (reversed, rule) := listMark rule
  let found? : Option (List Node × Session) :=
    if hasScript rule then
      let eval := evalSegments options (evalText options maxRuleDepth) n (segments rule)
      (eval.run session).map fun (value, session) => (scriptNodes value, session)
    else some (selectElements options n rule, session)
  found?.map fun (nodes, session) => (if reversed then nodes.reverse else nodes, session)

/-- The nodes of a rule, and the session afterwards.  A rule whose rules nest without end has
none. -/
def elements (options : Options) (session : Session) (n : Node) (rule : List Char) :
    List Node × Session :=
  (elements? options session n rule).getD ([], session)

end Scrape.Evaluate
