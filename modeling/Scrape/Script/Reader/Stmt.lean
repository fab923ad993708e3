import Scrape.Script.Reader.Expr

/-!
# Script — Reader — Statements

The readers of statements.
-/

namespace Scrape.Script

open Read

namespace Grammar

variable (g : Grammar)

/-- Whether `let` starts a declaration here. -/
def letDeclares : Read Bool := do
  if !(← seesWord "let") then return false
  match (← later?).map Source.token with
  | some (.name n)  => return !isReserved n
  | some (.punct p) => return p = "[" || p = "\x7b"
  | _               => return false

/-- Reads a variable that is declared.  In the head of a loop it has no value if the loop goes over
items; elsewhere a pattern needs one. -/
def declarator (ctx : Context) (inLoop : Bool) : Read Declarator := do
  let target ← g.binding ctx
  if inLoop && ((← seesWord "of") || (← seesWord "in")) then return .mk target none
  if ← accepts "=" then return .mk target (some (← g.assign ctx))
  match target with
  | .name _ => return .mk target none
  | _       => failure

/-- Reads the variables of a declaration. -/
def declarators (ctx : Context) (inLoop : Bool) : Read (List Declarator) := do
  let first ← g.declarator ctx inLoop
  loop (fun (ds : List Declarator) => do
    if ← accepts "," then return .inl ((← g.declarator ctx inLoop) :: ds)
    return .inr ds.reverse) [first]

/-- Reads a declaration of variables after its first word. -/
def vars (ctx : Context) : Read Stmt := do
  let ds ← g.declarators ctx false
  endStatement
  return .vars ds

/-- Reads an expression between parentheses. -/
def condition (ctx : Context) : Read Expr := do
  expect "("
  let e ← g.expr ctx
  expect ")"
  return e

/-- Reads an expression unless a mark comes next, and then the mark. -/
def exprBefore (ctx : Context) (close : String) : Read (Option Expr) := do
  if ← accepts close then return none
  let e ← g.expr ctx
  expect close
  return some e

/-- Reads a loop that counts from the first semicolon in its head on. -/
def countFrom (ctx : Context) (start : Option Stmt) : Read Stmt := do
  expect ";"
  let test ← g.exprBefore ctx ";"
  let update ← g.exprBefore ctx ")"
  return .count start test update (← g.stmt ctx false)

/-- Reads a loop over items or keys from the word before the list on. -/
def eachFrom (ctx : Context) (declares : Bool) (target : Binding) : Read Stmt := do
  if ← acceptsWord "of" then
    let list ← g.assign ctx
    expect ")"
    return .eachOf declares target list (← g.stmt ctx false)
  expectWord "in"
  let object ← g.expr ctx
  expect ")"
  return .eachIn declares target object (← g.stmt ctx false)

/-- Whether the head of a loop goes on with the word before a list. -/
def seesList : Read Bool := return (← seesWord "of") || (← seesWord "in")

/-- Reads a loop with a head in parentheses after its first word. -/
def forLoop (ctx : Context) : Read Stmt := do
  let _ ← acceptsWord "await"
  expect "("
  let outer := { ctx with takesIn := false }
  if (← seesWord "var") || (← seesWord "const") || (← letDeclares) then
    next
    let ds ← g.declarators outer true
    if ← seesList then
      match ds with
      | .mk target _ :: _ => g.eachFrom ctx true target
      | []                => failure
    else g.countFrom ctx (some (.vars ds))
  else if ← sees ";" then g.countFrom ctx none
  else
    let e ← g.expr outer
    if ← seesList then g.eachFrom ctx false (← lift e.loopTarget?)
    else g.countFrom ctx (some (.expr e))

/-- Reads statements up to the next case or the end of the switch. -/
def caseBody (ctx : Context) : Read (List Stmt) :=
  loop (fun (body : List Stmt) => do
    if (← seesWord "case") || (← seesWord "default") || (← sees "\x7d") then
      return .inr body.reverse
    return .inl ((← g.stmt ctx true) :: body)) []

/-- Reads a case of a switch. -/
def switchCase (ctx : Context) : Read Case := do
  let test ← if ← acceptsWord "default" then pure none else do
    expectWord "case"
    some <$> g.expr ctx
  expect ":"
  return .mk test (← g.caseBody ctx)

/-- Reads a statement that takes care of failures after its first word. -/
def attempt (ctx : Context) : Read Stmt := do
  let body ← g.block ctx
  let mut param := none
  let mut handler := none
  if ← acceptsWord "catch" then
    if ← accepts "(" then
      param := some (← g.binding ctx)
      expect ")"
    handler := some (← g.block ctx)
  let finalizer ← if ← acceptsWord "finally" then some <$> g.block ctx else pure none
  return .attempt body param handler finalizer

/-- Reads a declaration of a function after its first word. -/
def functionDecl (async : Bool) : Read Stmt := do
  let generator ← accepts "*"
  let name ← readName
  let (params, body) ← g.function generator async
  return .function name params body

/-- Reads the label after `break` or `continue`, if there is one. -/
def label : Read Unit := do
  if (← get).newline then return
  match ← token with
  | .name n => if !isReserved n then next
  | _       => return

/-- Reads a statement that is an expression, or one with a label. -/
def exprStmt (ctx : Context) : Read Stmt := do
  let e ← g.expr ctx
  match e with
  | .name _ =>
    if ← accepts ":" then
      let _ ← g.stmt ctx false
      return .other
  | _ => pure ()
  endStatement
  return .expr e

/-- Reads a statement that starts with a word. -/
def wordStmt (ctx : Context) (decls : Bool) (w : String) : Read Stmt := do
  match w with
  | "if" =>
    next
    let test ← g.condition ctx
    let yes ← g.stmt ctx false
    let no ← if ← acceptsWord "else" then some <$> g.stmt ctx false else pure none
    return .branch test yes no
  | "return" =>
    next
    if (← get).newline || (← sees ";") || (← sees "\x7d") || (← token) == .done then
      endStatement
      return .give none
    let e ← g.expr ctx
    endStatement
    return .give (some e)
  | "break"    => next; label; endStatement; return .leave
  | "continue" => next; label; endStatement; return .again
  | "while" =>
    next
    let test ← g.condition ctx
    return .whileDo test (← g.stmt ctx false)
  | "do" =>
    next
    let body ← g.stmt ctx false
    expectWord "while"
    let test ← g.condition ctx
    let _ ← accepts ";"
    return .doWhile body test
  | "for"    => next; g.forLoop ctx
  | "switch" =>
    next
    let value ← g.condition ctx
    expect "\x7b"
    return .switch value (← manyUntil "\x7d" (g.switchCase ctx))
  | "throw" =>
    next
    if (← get).newline then failure
    let e ← g.expr ctx
    endStatement
    return .throw e
  | "try"      => next; g.attempt ctx
  | "function" => next; g.functionDecl false
  | "class"    =>
    next
    let _ ← readName
    g.classTail ctx
    return .other
  | "var"      => next; g.vars ctx
  | "debugger" => next; endStatement; return .other
  | "with" =>
    next
    let _ ← g.condition ctx
    let _ ← g.stmt ctx false
    return .other
  | _ =>
    if w = "const" && decls then next; return ← g.vars ctx
    if decls && (← letDeclares) then next; return ← g.vars ctx
    if w = "async" then
      if (← later?).any fun source => source.token == .name "function" && !source.newline then
        next
        next
        return ← g.functionDecl true
    g.exprStmt ctx

/-- Reads a statement. -/
def stmtBody (ctx : Context) (decls : Bool) : Read Stmt := do
  match ← token with
  | .punct ";"    => next; return .empty
  | .punct "\x7b" => next; return .block (← g.stmts ctx)
  | .name w       => g.wordStmt ctx decls w
  | _             => g.exprStmt ctx

end Grammar

/-- The grammar of scripts in which readers nest at most `n` deep, with a reader of regular
expressions. -/
def grammar (regex : Read Expr) : Nat → Grammar
  | 0     => ⟨regex, fun _ => failure, fun _ => failure, fun _ => failure, fun _ => failure,
              fun _ _ => failure⟩
  | n + 1 =>
    ⟨regex,
     fun ctx source => (grammar regex n).assignBody ctx source,
     fun ctx source => (grammar regex n).operandBody ctx source,
     fun ctx source => (grammar regex n).constructedBody ctx source,
     fun ctx source => (grammar regex n).bindingBody ctx source,
     fun ctx decls source => (grammar regex n).stmtBody ctx decls source⟩

/-- Reads the statements of a whole source, with a reader of regular expressions.  Of two readers
that nest, at least one takes a token, so the length of the source bounds their nesting. -/
def readProgramWith? (regex : Read Expr) (s : List Char) : Option (List Stmt) :=
  let g := grammar regex (2 * s.length + 2)
  let all : Read (List Stmt) := loop (fun (body : List Stmt) => do
    if (← token) == .done then return .inr body.reverse
    return .inl ((← g.stmt ⟨true, false, false⟩ true) :: body)) []
  match Source.ofText? s with
  | some source => (all source).map Prod.fst
  | none        => none

/-- Reads the statements of a whole source. -/
def readProgram? (s : List Char) : Option (List Stmt) := readProgramWith? readRegex s

end Scrape.Script
