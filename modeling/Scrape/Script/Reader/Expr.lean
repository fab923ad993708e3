import Scrape.Script.Reader.Source
import Scrape.Script.Target

/-!
# Script — Reader — Expressions

The readers of expressions, patterns and functions.  They call each other through a `Grammar`, which
holds the readers that nest; the knot is tied where scripts are read.
-/

namespace Scrape.Script

open Read

/-- What the reading of an expression depends on: whether `in` is an operator here, and the kind of
the function around it. -/
structure Context where
  takesIn : Bool
  generator : Bool
  async : Bool

/-- The reader of a regular expression, and the readers that nest: those of an expression without
commas, of an operand, of what `new` constructs, of a pattern, and of a statement, which may be a
declaration or not. -/
structure Grammar where
  regex : Read Expr
  assign : Context → Read Expr
  operand : Context → Read Expr
  constructed : Context → Read Expr
  binding : Context → Read Binding
  stmt : Context → Bool → Read Stmt

/-- The same context, but with `in` as an operator. -/
def Context.inner (ctx : Context) : Context := { ctx with takesIn := true }

/-- The words that are no names. -/
def reservedWords : List String :=
  ["break", "case", "catch", "class", "const", "continue", "debugger", "default", "delete", "do",
   "else", "enum", "export", "extends", "finally", "for", "function", "if", "import", "in",
   "instanceof", "new", "return", "super", "switch", "this", "throw", "try", "typeof", "var",
   "void", "while", "with", "null", "true", "false"]

/-- Whether a word is no name. -/
def isReserved (w : String) : Bool := reservedWords.contains w

/-- Reads a name. -/
def readName : Read String := do
  match ← token with
  | .name n => if isReserved n then failure else next; return n
  | _       => failure

/-- Reads a regular expression that starts here. -/
def readRegex : Read Expr := do
  match readRegex? ((← get).text.drop 1) with
  | some (source, flags, r) => goTo r; return .regex source flags
  | none                    => failure

namespace Grammar

variable (g : Grammar)

/-- Reads an expression, which may hold commas. -/
def expr (ctx : Context) : Read Expr := do
  let first ← g.assign ctx
  if !(← sees ",") then return first
  .sequence <$> loop (fun (parts : List Expr) => do
    if ← accepts "," then return .inl ((← g.assign ctx) :: parts)
    return .inr parts.reverse) [first]

/-- Reads an item of a list, which may stand for all items of another. -/
def item (ctx : Context) : Read Expr := do
  if ← accepts "..." then .spread <$> g.assign ctx.inner else g.assign ctx.inner

/-- Reads arguments and their closing bracket. -/
def args (ctx : Context) : Read (List Expr) := return (← listUntil ")" (g.item ctx)).1

/-! ### Patterns and functions -/

/-- Reads a pattern that may have a default. -/
def bindingWithDefault (ctx : Context) : Read Binding := do
  let target ← g.binding ctx
  if ← accepts "=" then .withDefault target <$> g.assign ctx.inner else return target

/-- Reads a pattern in a list, which may take the rest of the list. -/
def bindingItem (ctx : Context) : Read Binding := do
  if ← accepts "..." then .rest <$> g.binding ctx else g.bindingWithDefault ctx

/-- Reads the statements of a block after its opening brace. -/
def stmts (ctx : Context) : Read (List Stmt) := manyUntil "\x7d" (g.stmt ctx true)

/-- Reads a block. -/
def block (ctx : Context) : Read (List Stmt) := do
  expect "\x7b"
  g.stmts ctx.inner

/-- Reads the parameters and the body of a function. -/
def function (generator async : Bool) : Read (List Binding × List Stmt) := do
  let ctx : Context := ⟨true, generator, async⟩
  expect "("
  let (params, _) ← listUntil ")" (g.bindingItem ctx)
  return (params, ← g.block ctx)

/-- Reads a function after its first word, with or without a name. -/
def functionExpr (async : Bool) : Read Expr := do
  let generator ← accepts "*"
  if !(← sees "(") then let _ ← readName
  let (params, body) ← g.function generator async
  return .function params body

/-- Reads an arrow and the body after it. -/
def arrow (ctx : Context) (async : Bool) (params : List Binding) : Read Expr := do
  if (← get).newline then failure
  expect "=>"
  if ← sees "\x7b" then return .function params (← g.block ⟨true, false, async⟩)
  return .arrow params (← g.assign { ctx with generator := false, async })

/-- Reads the name of a member or field, and gives the word if it is one. -/
def memberName (ctx : Context) : Read (Name × Option String) := do
  match ← token with
  | .name n      => next; return (.text n, some n)
  | .string s    => next; return (.text s, none)
  | .number v    => next; return (.number v, none)
  | .bigInteger  => next; return (.other, none)
  | .privateName => next; return (.other, none)
  | .punct "["   =>
    next
    let key ← g.assign ctx.inner
    expect "]"
    return (.computed key, none)
  | _            => failure

/-- Whether a token can begin the name of a member. -/
def startsMember : Token → Bool
  | .name _ | .string _ | .number _ | .bigInteger | .privateName => true
  | .punct p => p = "[" || p = "*"
  | _        => false

/-- Takes a word that says something about the member after it. -/
def modifier (w : String) : Read Bool := do
  if !(← seesWord w) then return false
  match ← later? with
  | some source =>
    if startsMember source.token then next; return true
    else return false
  | none => return false

/-- Reads a field of an object literal. -/
def field (ctx : Context) : Read Field := do
  if ← accepts "..." then return .spread (← g.assign ctx.inner)
  if (← modifier "get") || (← modifier "set") then
    let _ ← g.memberName ctx
    let _ ← g.function false false
    return .other
  let async ← modifier "async"
  let generator ← accepts "*"
  let (name, word?) ← g.memberName ctx
  if ← sees "(" then
    let (params, body) ← g.function generator async
    return .method name params body
  if async || generator then failure
  if ← accepts ":" then return .value name (← g.assign ctx.inner)
  match word? with
  | none      => failure
  | some word =>
    if ← accepts "=" then return .shorthandDefault word (← g.assign ctx.inner)
    return .shorthand word

/-- Reads a field of an object pattern. -/
def fieldBinding (ctx : Context) : Read FieldBinding := do
  if ← accepts "..." then return .rest (← g.binding ctx)
  let (name, word?) ← g.memberName ctx
  if ← accepts ":" then return .named name (← g.bindingWithDefault ctx)
  match word? with
  | none      => failure
  | some word =>
    if ← accepts "=" then return .shorthand word (some (← g.assign ctx.inner))
    return .shorthand word none

/-- Reads the places of a list after its opening bracket; a place between two commas may be left
out. -/
def places {α : Type} (hole : α) (item : Read α) : Read (List α) :=
  loop (fun (items : List α) => do
    if ← accepts "]" then return .inr items.reverse
    if ← accepts "," then return .inl (hole :: items)
    let a ← item
    if !(← sees "]") then expect ","
    return .inl (a :: items)) []

/-- Reads a pattern. -/
def bindingBody (ctx : Context) : Read Binding := do
  if ← accepts "[" then return .array (← places .hole (g.bindingItem ctx))
  if ← accepts "\x7b" then return .object (← listUntil "\x7d" (g.fieldBinding ctx)).1
  return .name (← readName)

/-- Reads the members of a class after its opening brace. -/
def classMembers (ctx : Context) : Read Unit :=
  loop (fun (_ : Unit) => do
    if ← accepts "\x7d" then return .inr ()
    if ← accepts ";" then return .inl ()
    if (← seesWord "static") && (← later?).any (·.token == .punct "\x7b") then
      next
      let _ ← g.block ⟨true, false, false⟩
      return .inl ()
    let _ ← modifier "static"
    let _ ← modifier "get"
    let _ ← modifier "set"
    let async ← modifier "async"
    let generator ← accepts "*"
    let _ ← g.memberName ctx
    if ← sees "(" then
      let _ ← g.function generator async
      return .inl ()
    if ← accepts "=" then let _ ← g.assign ctx.inner
    endStatement
    return .inl ()) ()

/-- Reads a class after its name. -/
def classTail (ctx : Context) : Read Unit := do
  if ← acceptsWord "extends" then let _ ← g.operand ctx
  expect "\x7b"
  g.classMembers ctx

/-- Reads a class after its first word, with or without a name. -/
def classExpr (ctx : Context) : Read Unit := do
  if !(← sees "\x7b") && !(← seesWord "extends") then let _ ← readName
  g.classTail ctx

/-! ### Primary expressions -/

/-- Reads a template after its opening quote: its texts as written, the expressions between them,
and whether its escapes are good. -/
def template (ctx : Context) : Read (List String × List Expr × Bool) :=
  loop (fun ((texts, parts, good) : List String × List Expr × Bool) => do
    match readTemplate? true [] (← get).rest with
    | none                          => failure
    | some (text, goodHere, more, r) =>
      goTo r
      let texts := text :: texts
      let good := good && goodHere
      if !more then return .inr (texts.reverse, parts.reverse, good)
      let part ← g.expr ctx.inner
      if !(← sees "\x7d") then failure
      return .inl (texts, part :: parts, good)) ([], [], true)

/-- Reads what a word stands for. -/
def word (ctx : Context) (w : String) : Read Expr := do
  let newlineAfter := (← later?).any (·.newline)
  next
  match w with
  | "null"     => return .null
  | "true"     => return .bool true
  | "false"    => return .bool false
  | "this"     => return .other
  | "function" => g.functionExpr false
  | "class"    => g.classExpr ctx; return .other
  | "async"    =>
    if !newlineAfter && (← acceptsWord "function") then g.functionExpr true
    else return .name w
  | "super"    =>
    if ← accepts "(" then let _ ← g.args ctx; return .otherCall
    if ← accepts "." then let _ ← g.memberName ctx; return .otherPlace
    expect "["
    let _ ← g.expr ctx.inner
    expect "]"
    return .otherPlace
  | "import"   =>
    if ← accepts "(" then let _ ← g.args ctx; return .otherCall
    expect "."
    expectWord "meta"
    return .other
  | w          => if isReserved w then failure else return .name w

/-- The expression that stands between parentheses. -/
def parenOf? (items : List Expr) (comma : Bool) : Option Expr :=
  if comma then none
  else
    match items with
    | []           => none
    | [.spread _]  => none
    | [e]          => some (.paren e)
    | items        =>
      if items.any fun | .spread _ => true | _ => false then none
      else some (.paren (.sequence items))

/-- Reads an expression that no operator holds together. -/
def primary (ctx : Context) : Read Expr := do
  match ← token with
  | .number v    => next; return .number v
  | .string s    => next; return .string s
  | .bigInteger  => next; return .otherLiteral
  | .name w      => g.word ctx w
  | .backquote   =>
    let (texts, parts, good) ← g.template ctx
    if good then return .template texts parts else failure
  | .punct "("   =>
    next
    let (items, comma) ← listUntil ")" (g.item ctx)
    lift (parenOf? items comma)
  | .punct "["   => next; return .array (← places .hole (g.item ctx))
  | .punct "\x7b" => next; return .object (← listUntil "\x7d" (g.field ctx)).1
  | .punct "/"   => g.regex
  | .punct "/="  => g.regex
  | _            => failure

/-- Reads the members of an expression and, if `calls`, its calls. -/
def accesses (ctx : Context) (calls : Bool) (start : Expr) : Read Expr :=
  loop (fun ((e, optional) : Expr × Bool) => do
    let gives (e : Expr) : Read (Expr × Bool ⊕ Expr) := return .inl (e, optional)
    if ← accepts "." then
      match ← token with
      | .name n      => next; gives (.member e (.text n))
      | .privateName => next; gives (.member e .other)
      | _            => failure
    else if ← accepts "[" then
      let key ← g.expr ctx.inner
      expect "]"
      gives (.member e (.computed key))
    else if (← sees "(") && calls then
      next
      gives (.call e (← g.args ctx))
    else if (← sees "?.") && calls then
      next
      if ← accepts "(" then let _ ← g.args ctx
      else if ← accepts "[" then
        let _ ← g.expr ctx.inner
        expect "]"
      else
        match ← token with
        | .name _      => next
        | .privateName => next
        | _            => failure
      return .inl (e, true)
    else if (← token) == .backquote && !optional then
      let _ ← g.template ctx
      gives .other
    else
      return .inr (if optional then .otherPlace else e)) (start, false)

/-- Reads what `new` constructs, with its arguments. -/
def constructedBody (ctx : Context) : Read Expr := do
  expectWord "new"
  if ← accepts "." then
    expectWord "target"
    return .other
  let head ← if ← seesWord "new" then g.constructed ctx else g.primary ctx
  let callee ← g.accesses ctx false head
  if ← sees "?." then failure
  if ← accepts "(" then return .construct callee (← g.args ctx)
  return .construct callee []

/-! ### Operators -/

/-- The operator before an operand that a token stands for. -/
def unaryOp? : Token → Option UnaryOp
  | .punct "!"      => some .not
  | .punct "-"      => some .minus
  | .punct "+"      => some .plus
  | .punct "~"      => some .complement
  | .name "typeof"  => some .typeOf
  | .name "void"    => some .void
  | .name "delete"  => some .delete
  | _               => none

/-- The operator between two operands that a token stands for, and how tightly it binds. -/
def binaryOp? (ctx : Context) : Token → Option (BinaryOp × Nat)
  | .punct "??"         => some (.nullish, 1)
  | .punct "||"         => some (.or, 2)
  | .punct "&&"         => some (.and, 3)
  | .punct "|"          => some (.bitOr, 4)
  | .punct "^"          => some (.bitXor, 5)
  | .punct "&"          => some (.bitAnd, 6)
  | .punct "=="         => some (.equal, 7)
  | .punct "!="         => some (.notEqual, 7)
  | .punct "==="        => some (.same, 7)
  | .punct "!=="        => some (.notSame, 7)
  | .punct "<"          => some (.less, 8)
  | .punct "<="         => some (.lessEqual, 8)
  | .punct ">"          => some (.greater, 8)
  | .punct ">="         => some (.greaterEqual, 8)
  | .name "instanceof"  => some (.instanceOf, 8)
  | .name "in"          => if ctx.takesIn then some (.isIn, 8) else none
  | .punct "<<"         => some (.shiftLeft, 9)
  | .punct ">>"         => some (.shiftRight, 9)
  | .punct ">>>"        => some (.shiftRightZero, 9)
  | .punct "+"          => some (.add, 10)
  | .punct "-"          => some (.sub, 10)
  | .punct "*"          => some (.mul, 11)
  | .punct "/"          => some (.div, 11)
  | .punct "%"          => some (.mod, 11)
  | .punct "**"         => some (.pow, 12)
  | _                   => none

/-- The operator of assignment that a token stands for. -/
def assignOp? : Token → Option AssignOp
  | .punct "="    => some .plain
  | .punct "+="   => some (.compound .add)
  | .punct "-="   => some (.compound .sub)
  | .punct "*="   => some (.compound .mul)
  | .punct "/="   => some (.compound .div)
  | .punct "%="   => some (.compound .mod)
  | .punct "**="  => some (.compound .pow)
  | .punct "<<="  => some (.compound .shiftLeft)
  | .punct ">>="  => some (.compound .shiftRight)
  | .punct ">>>=" => some (.compound .shiftRightZero)
  | .punct "&="   => some (.compound .bitAnd)
  | .punct "|="   => some (.compound .bitOr)
  | .punct "^="   => some (.compound .bitXor)
  | .punct "&&="  => some .and
  | .punct "||="  => some .or
  | .punct "??="  => some .nullish
  | _             => none

/-- Whether an increment or decrement comes next, and whether it is an increment. -/
def updateOp? : Token → Option Bool
  | .punct "++" => some true
  | .punct "--" => some false
  | _           => none

/-- Reads an operand from its first expression on. -/
def operandFrom (ctx : Context) (start : Expr) : Read Expr := do
  let e ← g.accesses ctx true start
  if (← get).newline then return e
  match updateOp? (← token) with
  | some up => next; return .update false up e
  | none    => return e

/-- Whether the token ends an expression. -/
def endsExpr : Token → Bool
  | .punct p => [")", "]", ";", ",", "\x7d"].contains p
  | _        => false

/-- Reads an operand with the operators before it. -/
def operandBody (ctx : Context) : Read Expr := do
  let t ← token
  match unaryOp? t, updateOp? t with
  | some op, _ => next; return .unary op (← g.operand ctx)
  | _, some up => next; return .update true up (← g.operand ctx)
  | _, _ =>
    if t == .name "await" then
      next
      if !ctx.async && endsExpr (← token) then return .name "await"
      let _ ← g.operand ctx
      return .other
    let start ← if t == .name "new" then g.constructedBody ctx else g.primary ctx
    g.operandFrom ctx start

/-- An operand and the operator after it, with how tightly that binds. -/
structure Pending where
  left : Expr
  op : BinaryOp
  tightness : Nat

/-- Applies the pending operators that bind at least as tightly as `limit` to their last operand. -/
def settle (limit : Nat) : List Pending → Expr → List Pending × Expr
  | [],      e => ([], e)
  | p :: ps, e =>
    if limit ≤ p.tightness then settle limit ps (.binary p.op p.left e) else (p :: ps, e)

/-- Reads operands and the operators between them from the first operand on.  Operators of one
tightness are applied from the left, powers from the right. -/
def operations (ctx : Context) (first : Expr) : Read Expr :=
  loop (fun ((pending, last) : List Pending × Expr) => do
    match binaryOp? ctx (← token) with
    | none => return .inr (settle 0 pending last).2
    | some (op, tightness) =>
      if op = .pow then
        match last with
        | .unary _ _ => failure
        | _          => pure ()
      next
      let (pending, left) := settle (if op = .pow then tightness + 1 else tightness) pending last
      return .inl (⟨left, op, tightness⟩ :: pending, ← g.operand ctx)) ([], first)

/-- Reads an expression without commas from its first operand on. -/
def assignFrom (ctx : Context) (first : Expr) : Read Expr := do
  let e ← g.operations ctx first
  let e ←
    if ← accepts "?" then
      let yes ← g.assign ctx.inner
      expect ":"
      pure (.conditional e yes (← g.assign ctx))
    else pure e
  match assignOp? (← token) with
  | none    => return e
  | some op =>
    let target ← lift (if op = .plain then e.assignTarget? else e.updateTarget?)
    next
    return .assign op target (← g.assign ctx)

/-- Reads a `yield`. -/
def yields (ctx : Context) : Read Expr := do
  next
  if (← get).newline || endsExpr (← token) || (← token) == .done then return .other
  let _ ← accepts "*"
  let _ ← g.assign ctx
  return .other

/-- Reads an expression without commas.  A list in parentheses is a list of parameters if an arrow
comes after it. -/
def assignBody (ctx : Context) : Read Expr := do
  match ← token with
  | .punct "(" =>
    next
    let (items, comma) ← listUntil ")" (g.item ctx)
    if ← sees "=>" then g.arrow ctx false (← lift (bindings? false items))
    else g.assignFrom ctx (← g.operandFrom ctx (← lift (parenOf? items comma)))
  | .name w =>
    if w = "yield" && ctx.generator then return ← g.yields ctx
    let after? ← later?
    let sameLine := after?.any fun source => !source.newline
    let after : Token := (after?.map Source.token).getD .done
    match after with
    | .punct "=>" =>
      let n ← readName
      g.arrow ctx false [.name n]
    | .name n =>
      if w = "async" && sameLine && !isReserved n then
        next
        let n ← readName
        g.arrow ctx true [.name n]
      else g.assignFrom ctx (← g.operand ctx)
    | .punct "(" =>
      if w = "async" && sameLine then
        next
        next
        let items ← g.args ctx
        if ← sees "=>" then g.arrow ctx true (← lift (bindings? false items))
        else g.assignFrom ctx (← g.operandFrom ctx (.call (.name w) items))
      else g.assignFrom ctx (← g.operand ctx)
    | _ => g.assignFrom ctx (← g.operand ctx)
  | _ => g.assignFrom ctx (← g.operand ctx)

end Grammar

end Scrape.Script
