import Scrape.Script.Method.Global
import Scrape.Script.Method.List
import Scrape.Script.Run

/-!
# Script — Interp

The meaning of expressions and statements.  Each is given by means of the meaning of its parts
(`Interp`), and the knot is tied by a bound on how deep they nest (`interp`), which a run takes from
the length of its script.
-/

namespace Scrape.Script

open Run

/-- How a statement ends. -/
inductive Flow where
  | normal
  | give (v : Value)
  | leave
  | again

/-- The meaning of the parts of a script: the value of an expression, the effect of a statement,
the binding of a pattern, which may be declared or not, the assignment to an expression, the call of
a function, and the effect of putting a value into the session. -/
structure Interp where
  eval : Expr → Run Value
  exec : Stmt → Run Flow
  bind : Bool → Binding → Value → Run Unit
  assign : Expr → Value → Run Unit
  call : List Binding → Body → List Value → Run Value
  put : String → Value → Run Unit

/-- Whether the expression is a variable, or a member of one at any depth. -/
def Expr.isPlace : Expr → Bool
  | .name _     => true
  | .member o _ => o.isPlace
  | .paren e    => e.isPlace
  | _           => false

namespace Interp

variable (self : Interp)

/-! ### Lists and names -/

/-- Calls a function with values. -/
def callValue (f : Value) (args : List Value) : Run Value :=
  match f with
  | .function _ params body => self.call params body args
  | v                       => fault (.notFunction v.kind)

/-- The items of a list. -/
def itemsOf (v : Value) : Run (List Value) :=
  match v.items? with
  | some items => return items
  | none       => fault (.notIterable v.kind)

/-- The values of items, after the values `acc`, which are held in reverse. -/
def evalItems (acc : List Value) : List Expr → Run (List Value)
  | []             => return acc.reverse
  | .spread e :: r => do
    let items ← itemsOf (← self.eval e)
    evalItems (items.reverse ++ acc) r
  | .hole :: r     => evalItems (.undefined :: acc) r
  | e :: r         => do evalItems ((← self.eval e) :: acc) r

/-- The key that a name stands for. -/
def keyOf (otherwise : Form) : Name → Run String
  | .text s     => return s
  | .number x   => return String.ofList x.text
  | .computed e => return (← self.eval e).text
  | .other      => fault (.unsupported otherwise)

/-- The key of a member. -/
def memberKey (name : Name) : Run String := self.keyOf .memberAccess name

/-- The key of a property. -/
def propertyKey (name : Name) : Run String := self.keyOf .propertyName name

/-- The text of a template with its escapes taken. -/
def templateText (s : List Char) : List Char :=
  match s with
  | '\\' :: 'n' :: r => '\n' :: templateText r
  | '\\' :: 't' :: r => '\t' :: templateText r
  | '\\' :: 'r' :: r => '\r' :: templateText r
  | '\\' :: c :: r   => c :: templateText r
  | c :: r           => c :: templateText r
  | []               => []

/-- The text of a template, after the text `acc`. -/
def evalTemplate (acc : String) : List String → List Expr → Run String
  | [],      _      => return acc
  | t :: _,  []     => return acc ++ String.ofList (templateText t.toList)
  | t :: ts, e :: r => do
    let acc := acc ++ String.ofList (templateText t.toList)
    let part := (← self.eval e).text
    evalTemplate (← ofOutcome (joined acc part)) ts r

/-- The properties of the fields of an object literal, put after the properties `acc`. -/
def evalFields (acc : List (String × Value)) : List Field → Run (List (String × Value))
  | []     => return acc
  | f :: r => do
    match f with
    | .value name e =>
      let key ← self.propertyKey name
      evalFields (Keyed.put key (← self.eval e) acc) r
    | .shorthand n => evalFields (Keyed.put n (← valueOf n) acc) r
    | .method name params body =>
      let key ← self.propertyKey name
      evalFields (Keyed.put key (← newFunction params (.block body)) acc) r
    | .spread e =>
      match ← self.eval e with
      | .object fields => evalFields (Keyed.putAll acc fields) r
      | .array items   =>
        let fields := items.mapIdx fun i v => (String.ofList (Text.decimal i), v)
        evalFields (Keyed.putAll acc fields) r
      | _ => evalFields acc r
    | .shorthandDefault .. => fault (.unsupported .objectProperty)
    | .other               => fault (.unsupported .objectProperty)

/-! ### Members and assignment -/

/-- Puts a changed value back where it was read from, if that is a variable or part of one. -/
def putBack (place : Expr) (v : Value) : Run Unit :=
  if place.isPlace then self.assign place v else return ()

/-- Sets a member. -/
def assignMember (object : Expr) (name : Name) (v : Value) : Run Unit := do
  let key ← self.memberKey name
  let container ← self.eval object
  match container.set? key v with
  | some changed => self.putBack object changed
  | none         => fault (.unsettable key container.kind)

/-- Assigns to an expression. -/
def assignBody (target : Expr) (v : Value) : Run Unit :=
  match target with
  | .name n       => setVar false n v
  | .member o key => self.assignMember o key v
  | .paren e      => self.assign e v
  | _             => fault .invalidTarget

/-- Whether the expression names the constants of mathematics. -/
def isMath (e : Expr) : Run Bool := do
  match e with
  | .name n => return n = "Math" && (← lookup? n).isNone
  | _       => return false

/-- The value of a member. -/
def evalMember (object : Expr) (name : Name) : Run Value := do
  if ← isMath object then return mathConstant (← self.memberKey name)
  let target ← self.eval object
  let key ← self.memberKey name
  if target.isNullish then fault (.unreadable key target.text)
  return target.get key

/-- Removes a member. -/
def deleteMember (object : Expr) (name : Name) : Run Unit := do
  let key ← self.memberKey name
  match ← self.eval object with
  | .object fields => self.putBack object (.object (Keyed.erase key fields))
  | _              => return ()

/-- The value that a target of an assignment holds. -/
def readTarget : Binding → Run Value
  | .name n                => valueOf n
  | .place (.member o key) => self.evalMember o key
  | .place (.paren e)      => self.eval e
  | _                      => fault (.unsupported .assignmentTarget)

/-- Assigns to a target. -/
def writeTarget (target : Binding) (v : Value) : Run Unit :=
  match target with
  | .name n                => setVar false n v
  | .place (.member o key) => self.assignMember o key v
  | .place (.paren e)      => self.assign e v
  | .array items           => self.bind false (.array items) v
  | .object fields         => self.bind false (.object fields) v
  | _                      => fault (.unsupported .assignmentTarget)

/-- The value that an assignment assigns, or else the value of the whole assignment if nothing is
assigned. -/
def assignedValue (op : AssignOp) (target : Binding) (e : Expr) : Run (Value ⊕ Value) := do
  let assignedIf (p : Value → Bool) : Run (Value ⊕ Value) := do
    let old ← self.readTarget target
    if p old then return .inl (← self.eval e) else return .inr old
  match op with
  | .plain       => return .inl (← self.eval e)
  | .and         => assignedIf (·.isTrue)
  | .or          => assignedIf (!·.isTrue)
  | .nullish     => assignedIf (·.isNullish)
  | .compound op =>
    let old ← self.readTarget target
    return .inl (← ofOutcome (op.apply old (← self.eval e)))

/-- The value of an assignment. -/
def evalAssign (op : AssignOp) (target : Binding) (e : Expr) : Run Value := do
  match ← self.assignedValue op target e with
  | .inr v => return v
  | .inl v => self.writeTarget target v; return v

/-- The value of an increment or decrement. -/
def evalUpdate (before up : Bool) (operand : Expr) : Run Value := do
  let old := (← self.eval operand).toNumber
  let one : Number := .finite 1
  let new := if up then old.add one else old.sub one
  self.assign operand (.number new)
  return .number (if before then new else old)

/-! ### Patterns -/

/-- Binds the items of a pattern to the items of a list from a place on. -/
def bindItems (declare : Bool) (v : Value) : Nat → List Binding → Run Unit
  | _, []             => return ()
  | i, .hole :: r     => bindItems declare v (i + 1) r
  | i, .rest b :: _   =>
    let tail := match v with
      | .array items => items.drop i
      | _            => []
    self.bind declare b (.array tail)
  | i, b :: r         => do
    self.bind declare b (v.get (String.ofList (Text.decimal i)))
    bindItems declare v (i + 1) r

/-- Binds the fields of a pattern to the properties of a value. -/
def bindFields (declare : Bool) (v : Value) : List FieldBinding → Run Unit
  | []     => return ()
  | f :: r => do
    match f with
    | .shorthand n default? =>
      let v ← match v.get n, default? with
        | .undefined, some e => self.eval e
        | v,          _      => pure v
      setVar declare n v
    | .named name b =>
      let key ← self.propertyKey name
      self.bind declare b (v.get key)
    | .rest _ => fault (.unsupported .objectRestPattern)
    bindFields declare v r

/-- Binds a pattern to a value. -/
def bindBody (declare : Bool) (target : Binding) (v : Value) : Run Unit := do
  match target with
  | .name n          => setVar declare n v
  | .array items     => self.bindItems declare v 0 items
  | .object fields   => self.bindFields declare v fields
  | .withDefault b e =>
    let v ← match v with
      | .undefined => self.eval e
      | v          => pure v
    self.bind declare b v
  | .place e         =>
    if declare then fault (.unsupported .bindingPattern) else self.assign e v
  | _                => fault (.unsupported .bindingPattern)

/-- Declares variables. -/
def declareAll : List Declarator → Run Unit
  | []                   => return ()
  | .mk target init :: r => do
    let v ← match init with
      | some e => self.eval e
      | none   => pure .undefined
    self.bind true target v
    declareAll r

/-! ### Methods that call functions -/

/-- What is left to do after a call for an item of an array: to give a value, or to go on with a
list of values that are held in reverse. -/
abbrev Step := Value ⊕ List Value

/-- What a method does after the call for the item at a place. -/
def afterCall (name : String) (i : Nat) (item out : Value) (acc : List Value) : Step :=
  match name with
  | "map"       => .inr (out :: acc)
  | "filter"    => .inr (if out.isTrue then item :: acc else acc)
  | "find"      => if out.isTrue then .inl item else .inr acc
  | "findIndex" => if out.isTrue then .inl (.ofNat i) else .inr acc
  | "some"      => if out.isTrue then .inl (.bool true) else .inr acc
  | "every"     => if out.isTrue then .inr acc else .inl (.bool false)
  | _           => .inr acc

/-- What a method gives after the calls for all items. -/
def afterAll (name : String) (acc : List Value) : Value :=
  match name with
  | "map"       => .array acc.reverse
  | "filter"    => .array acc.reverse
  | "findIndex" => .number (.finite (-1))
  | "some"      => .bool false
  | "every"     => .bool true
  | _           => .undefined

/-- Calls a function for the items of an array from a place on. -/
def callEach (name : String) (f : Value) (whole : List Value) (acc : List Value) :
    Nat → List Value → Run Value
  | _, []        => return afterAll name acc
  | i, item :: r => do
    let out ← self.callValue f [item, .ofNat i, .array whole]
    match afterCall name i item out acc with
    | .inl v   => return v
    | .inr acc => callEach name f whole acc (i + 1) r

/-- Calls a function for the items of an array from a place on, each time with what it gave
before. -/
def fold (f : Value) (acc : Value) : Nat → List Value → Run Value
  | _, []        => return acc
  | i, item :: r => do fold f (← self.callValue f [acc, item, .ofNat i]) (i + 1) r

/-- The value of folding an array from its start. -/
def reduce (f : Value) (items args : List Value) : Run Value :=
  match args[1]?, items with
  | some init, items   => self.fold f init 0 items
  | none, first :: r   => self.fold f first 1 r
  | none, []           => fault .emptyReduce

/-- Whether an item comes after another when sorted. -/
def comesAfter (comparator? : Option Value) (a b : Value) : Run Bool := do
  match comparator? with
  | some (.function _ params body) =>
    let v ← self.call params body [a, b]
    return Number.compare? v.toNumber (.finite 0) == some .gt
  | _ =>
    tick
    return compareText a.text b.text == .gt

/-- Puts an item into a sorted list, which is held in reverse, before the items that come after it
and after all others; `passed` holds the items that come after it. -/
def insertSorted (comparator? : Option Value) (item : Value) (passed : List Value) :
    List Value → Run (List Value)
  | []        => return passed.reverse ++ [item]
  | last :: r => do
    if ← self.comesAfter comparator? last item then insertSorted comparator? item (last :: passed) r
    else return passed.reverse ++ item :: last :: r

/-- Sorts items into a sorted list, which is held in reverse. -/
def sortInto (comparator? : Option Value) (sorted : List Value) : List Value → Run (List Value)
  | []        => return sorted.reverse
  | item :: r => do sortInto comparator? (← self.insertSorted comparator? item [] sorted) r

/-- The items sorted; items of which none comes after the other keep their order. -/
def sort (comparator? : Option Value) (items : List Value) : Run (List Value) :=
  self.sortInto comparator? [] items

/-- The function among arguments that is called for items. -/
def callback (args : List Value) : Run Value :=
  match args.head? with
  | some (.function id params body) => return .function id params body
  | _                               => fault .callbackMissing

/-- Calls a method of an array. -/
def arrayMethod (items : List Value) (name : String) (args : List Value) : Run Reply := do
  if name = "sort" then
    let sorted ← self.sort args.head? items
    return .changing (.array sorted) sorted
  else if name = "reduce" then
    let f ← callback args
    return .plain (← self.reduce f items args)
  else if ["map", "filter", "forEach", "find", "findIndex", "some", "every"].contains name then
    let f ← callback args
    return .plain (← self.callEach name f items [] 0 items)
  else
    match listMethod? items name args with
    | some outcome => ofOutcome outcome
    | none         => fault (.noMethod "array" name)

/-- The text of what a function gives for a match. -/
def replacement (f : Value) (s : String) (m : Pattern.Match) : Run (List Char) := do
  let args := m.groups.map groupValue ++ [.ofNat m.start, .string s]
  return (← self.callValue f args).text.toList

/-- The texts of what a function gives for matches, with each match. -/
def replacements (f : Value) (s : String) (acc : List (Pattern.Match × List Char)) :
    List Pattern.Match → Run (List (Pattern.Match × List Char))
  | []      => return acc.reverse
  | m :: ms => do replacements f s ((m, ← self.replacement f s m) :: acc) ms

/-- The text with matches replaced by what a function gives for them. -/
def replaceByCalls (s : String) (all : Bool) (f : Value) (args : List Value) : Run Value := do
  let (needle, global) ← ofOutcome (Needle.ofValue ((args.head?).getD (.string "")))
  let found := needle.matchesIn (all || global) s.toList
  let texts ← self.replacements f s [] found
  return .ofChars (Pattern.replaceInTurn texts s.toList)

/-- Calls a method of a text. -/
def stringMethod (s name : String) (args : List Value) : Run Value :=
  match name, argument 1 args with
  | "replace",    .function id params body =>
    self.replaceByCalls s false (.function id params body) args
  | "replaceAll", .function id params body =>
    self.replaceByCalls s true (.function id params body) args
  | _,            _ => ofOutcome (textMethod s name args)

/-- Calls a method of an object: a property that is a function, or else one that all objects
have. -/
def objectMethod (fields : List (String × Value)) (name : String) (args : List Value) :
    Run Value :=
  match Keyed.get? name fields with
  | some (.function _ params body) => self.call params body args
  | _ =>
    match name with
    | "hasOwnProperty" => return .bool (Keyed.has (textArgument 0 args) fields)
    | "toString"       => return .string (Value.object fields).text
    | _                => fault (.notFunction name)

/-- Calls a method of a value. -/
def callMethod (target : Value) (name : String) (args : List Value) : Run Reply :=
  match target with
  | .string s           => .plain <$> self.stringMethod s name args
  | .array items        => self.arrayMethod items name args
  | .regex source flags => .plain <$> ofOutcome (regexMethod source flags name args)
  | .number x           => .plain <$> ofOutcome (numberMethod x name args)
  | .object fields      => .plain <$> self.objectMethod fields name args
  | target => do
    match target with
    | .function _ params body =>
      if name = "call" then return .plain (← self.call params body (args.drop 1))
    | _ => pure ()
    if name = "toString" && !target.isNullish then return .plain (.string target.text)
    fault (.uncallable name target.text)

/-- Whether a namespace is that of the session. -/
def isSessionSpace (space : String) : Bool := space = "context" || space = "java"

/-- Calls a function of a namespace; those of the session get, put and log. -/
def callNamespace (space name : String) (args : List Value) : Run Value :=
  if isSessionSpace space && name = "get" then do
    return .string (← sessionValue (argument 0 args).text)
  else if isSessionSpace space && name = "put" then do
    let v := argument 1 args
    self.put (argument 0 args).text v
    return v
  else if (isSessionSpace space || space = "console") && ["log", "warn", "error"].contains name then
    return .undefined
  else ofOutcome (namespaceFunction space name args)

/-! ### Calls -/

/-- The namespace that an expression names, if no variable hides it. -/
def namespaceOf? (e : Expr) : Run (Option String) := do
  match e with
  | .name n => return if isNamespace n && (← lookup? n).isNone then some n else none
  | _       => return none

/-- The value of a call of a member. -/
def evalMethodCall (object : Expr) (member : Name) (args : List Expr) : Run Value := do
  let name ← self.memberKey member
  match ← namespaceOf? object with
  | some space => self.callNamespace space name (← self.evalItems [] args)
  | none =>
    let target ← self.eval object
    let reply ← self.callMethod target name (← self.evalItems [] args)
    match reply.changed? with
    | some changed => self.putBack object changed
    | none         => pure ()
    return reply.value

/-- The value of a call. -/
def evalCall (callee : Expr) (args : List Expr) : Run Value := do
  let callEvaluated : Run Value := do
    let f ← self.eval callee
    self.callValue f (← self.evalItems [] args)
  match callee with
  | .member o name => self.evalMethodCall o name args
  | .name n        =>
    if (← lookup? n).isNone then ofOutcome (globalFunction n (← self.evalItems [] args))
    else callEvaluated
  | _              => callEvaluated

/-- The value of a construction. -/
def evalConstruct (callee : Expr) (args : List Expr) : Run Value := do
  let args ← self.evalItems [] args
  match callee with
  | .name n => ofOutcome (globalFunction n args)
  | _       => fault (.unsupported .constructor)

/-! ### Expressions -/

/-- The kind of a name that is no variable. -/
def kindOfName (name : String) : String :=
  if name = "NaN" || name = "Infinity" then "number"
  else if ["JSON", "Math", "context", "java", "console"].contains name then "object"
  else "undefined"

/-- The value of an operator before an operand. -/
def evalUnary (op : UnaryOp) (operand : Expr) : Run Value := do
  match op, operand with
  | .typeOf, .name n =>
    if (← lookup? n).isNone then return .string (kindOfName n)
    return .string (← valueOf n).kind
  | .delete, .member o name => self.deleteMember o name; return .bool true
  | .delete, _              => return .bool true
  | op,      e              => return op.apply (← self.eval e)

/-- The value of an operator between two operands.  The second is left out where the first
decides. -/
def evalBinary (op : BinaryOp) (left right : Expr) : Run Value := do
  let a ← self.eval left
  match op with
  | .and     => if a.isTrue then self.eval right else return a
  | .or      => if a.isTrue then return a else self.eval right
  | .nullish => if a.isNullish then self.eval right else return a
  | op       => ofOutcome (op.apply a (← self.eval right))

/-- The value of the last of some expressions. -/
def evalSequence (last : Value) : List Expr → Run Value
  | []     => return last
  | e :: r => do evalSequence (← self.eval e) r

/-- The value of an expression. -/
def evalBody : Expr → Run Value
  | .number x                => return .number x
  | .string s                => return .string s
  | .bool b                  => return .bool b
  | .null                    => return .null
  | .regex source flags      => return .regex source flags
  | .otherLiteral            => fault (.unsupported .literal)
  | .name n                  => valueOf n
  | .paren e                 => self.eval e
  | .template texts parts    => return .string (← self.evalTemplate "" texts parts)
  | .array items             => return .array (← self.evalItems [] items)
  | .object fields           => return .object (← self.evalFields [] fields)
  | .unary op e              => self.evalUnary op e
  | .update before up e      => self.evalUpdate before up e
  | .binary op a b           => self.evalBinary op a b
  | .assign op target e      => self.evalAssign op target e
  | .conditional test yes no => do
    if (← self.eval test).isTrue then self.eval yes else self.eval no
  | .sequence parts          => self.evalSequence .undefined parts
  | .member o name           => self.evalMember o name
  | .call callee args        => self.evalCall callee args
  | .otherCall               => fault (.unsupported .call)
  | .construct callee args   => self.evalConstruct callee args
  | .function params body    => newFunction params (.block body)
  | .arrow params e          => newFunction params (.expr e)
  | .spread _                => fault (.unsupported .expression)
  | .hole                    => fault (.unsupported .expression)
  | .otherPlace              => fault (.unsupported .expression)
  | .other                   => fault (.unsupported .expression)

/-! ### Statements -/

/-- Declares the functions among some statements. -/
def hoist : List Stmt → Run Unit
  | []                            => return ()
  | .function name params body :: r => do
    setVar true name (← newFunction params (.block body))
    hoist r
  | _ :: r                        => hoist r

/-- Executes statements one after the other until one does not end normally. -/
def execAll : List Stmt → Run Flow
  | []     => return .normal
  | s :: r => do
    match ← self.exec s with
    | .normal => execAll r
    | flow    => return flow

/-- Executes the statements of a block. -/
def execBlock (body : List Stmt) : Run Flow := do
  hoist body
  self.execAll body

/-- What a round of a loop does after its body: the loop ends, or it goes on. -/
def afterRound : Flow → Option Flow
  | .leave  => some .normal
  | .give v => some (.give v)
  | _       => none

/-- Whether a condition holds; a missing condition does. -/
def holds (test : Option Expr) : Run Bool := do
  match test with
  | some e => return (← self.eval e).isTrue
  | none   => return true

/-- Executes a loop with a condition before its body. -/
def execWhile (test : Option Expr) (body : Stmt) (update : Option Expr) : Run Flow :=
  repeatedly do
    if !(← self.holds test) then return some .normal
    match afterRound (← self.exec body) with
    | some flow => return some flow
    | none =>
      match update with
      | some e => let _ ← self.eval e
      | none   => pure ()
      return none

/-- Executes a loop with a condition after its body. -/
def execDoWhile (body : Stmt) (test : Expr) : Run Flow :=
  repeatedly do
    match afterRound (← self.exec body) with
    | some flow => return some flow
    | none      => if (← self.eval test).isTrue then return none else return some .normal

/-- Executes the body of a loop for each of some values. -/
def execEach (declare : Bool) (target : Binding) (body : Stmt) : List Value → Run Flow
  | []     => return .normal
  | v :: r => do
    tick
    self.bind declare target v
    match afterRound (← self.exec body) with
    | some flow => return flow
    | none      => execEach declare target body r

/-- The cases of a switch from the first one on whose test has the value. -/
def matchingCases (v : Value) : List Case → Run (Option (List Case))
  | []                       => return none
  | .mk (some test) body :: r => do
    if (← self.eval test).same v then return some (.mk (some test) body :: r)
    else matchingCases v r
  | .mk none _ :: r           => matchingCases v r

/-- The cases of a switch from the one without a test on. -/
def defaultCases : List Case → List Case
  | []                      => []
  | .mk none body :: r      => .mk none body :: r
  | .mk (some _) _ :: r     => defaultCases r

/-- Executes the bodies of cases one after the other. -/
def execCases : List Case → Run Flow
  | []              => return .normal
  | .mk _ body :: r => do
    match ← self.execBlock body with
    | .normal => execCases r
    | .leave  => return .normal
    | flow    => return flow

/-- Executes a switch. -/
def execSwitch (value : Expr) (cases : List Case) : Run Flow := do
  let v ← self.eval value
  let chosen? ← self.matchingCases v cases
  self.execCases (chosen?.getD (defaultCases cases))

/-- Binds the message of a failure to a pattern, if there is one. -/
def bindMessage (param : Option Binding) (f : Cause) : Run Unit :=
  match param with
  | some target => self.bind true target (.string f.val.message)
  | none        => pure ()

/-- Executes a handler after a failure, which stays if there is none. -/
def execHandler (param : Option Binding) (handler : Option (List Stmt)) :
    (Cause → Run Unit) × (Cause → Run Flow) :=
  match handler with
  | some body => (self.bindMessage param, fun _ => self.execBlock body)
  | none      => (fun _ => pure (), fun f => throw f.val)

/-- Executes what is done in any case.  Only a value that it gives counts. -/
def execLast (finalizer : Option (List Stmt)) : Run (Option Flow) := do
  match finalizer with
  | some body =>
    match ← self.execBlock body with
    | .give v => return some (.give v)
    | _       => return none
  | none => return none

/-- Executes a body with what takes care of its failures and what is done in any case. -/
def execAttempt (body : List Stmt) (param : Option Binding)
    (handler finalizer : Option (List Stmt)) : Run Flow :=
  let (prepare, handle) := self.execHandler param handler
  attempt (self.execBlock body) prepare handle (self.execLast finalizer)

/-- Executes a statement. -/
def execBody (s : Stmt) : Run Flow := do
  tick
  match s with
  | .expr e                  => let _ ← self.eval e; return .normal
  | .vars decls              => self.declareAll decls; return .normal
  | .function ..             => return .normal
  | .empty                   => return .normal
  | .block body              => self.execBlock body
  | .branch test yes no      =>
    if (← self.eval test).isTrue then self.exec yes
    else
      match no with
      | some no => self.exec no
      | none    => return .normal
  | .give none               => return .give .undefined
  | .give (some e)           => return .give (← self.eval e)
  | .leave                   => return .leave
  | .again                   => return .again
  | .whileDo test body       => self.execWhile (some test) body none
  | .doWhile body test       => self.execDoWhile body test
  | .count start test update body =>
    match start with
    | some (.vars decls) => self.declareAll decls
    | some (.expr e)     => let _ ← self.eval e
    | _                  => pure ()
    self.execWhile test body update
  | .eachOf declares target list body =>
    let items ← itemsOf (← self.eval list)
    self.execEach declares target body items
  | .eachIn declares target object body =>
    let keys := keysOf (← self.eval object)
    self.execEach declares target body keys
  | .switch value cases      => self.execSwitch value cases
  | .throw e                 => fault (.thrown (← self.eval e).text)
  | .attempt body param handler finalizer => self.execAttempt body param handler finalizer
  | .other                   => fault (.unsupported .statement)

/-! ### Functions -/

/-- Binds the parameters of a function to arguments. -/
def bindParams : List Binding → List Value → Run Unit
  | [],            _    => return ()
  | .rest b :: _,  args => self.bind true b (.array args)
  | b :: r,        args => do
    self.bind true b (args.head?.getD .undefined)
    bindParams r args.tail

/-- Calls a function. -/
def callBody (params : List Binding) (body : Body) (args : List Value) : Run Value :=
  inCall do
    self.bindParams params args
    match body with
    | .expr e      => self.eval e
    | .block stmts =>
      match ← self.execBlock stmts with
      | .give v => return v
      | _       => return .undefined

end Interp

/-- The meaning of parts that nest at most `n` deep, with an effect of putting.  A statement takes
its step before anything else. -/
def interp (put : String → Value → Run Unit) : Nat → Interp
  | 0     =>
    { eval := fun _ => throw .exhausted
      exec := fun _ => do tick; throw .exhausted
      bind := fun _ _ _ => throw .exhausted
      assign := fun _ _ => throw .exhausted
      call := fun _ _ _ => throw .exhausted
      put := put }
  | n + 1 =>
    { eval := fun e => (interp put n).evalBody e
      exec := fun s => (interp put n).execBody s
      bind := fun declare b v => (interp put n).bindBody declare b v
      assign := fun e v => (interp put n).assignBody e v
      call := fun params body args => (interp put n).callBody params body args
      put := put }

end Scrape.Script
