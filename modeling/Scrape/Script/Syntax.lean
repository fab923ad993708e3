import Scrape.Number.Basic

/-!
# Script — Syntax

The syntax trees of scripts.  The trees keep what a run looks at: parentheses are kept, because an
assignment goes through them, and a form that no run supports is kept as a mark, because it fails
only when the run comes to it.
-/

namespace Scrape.Script

/-- An operator before an operand. -/
inductive UnaryOp where
  | not
  | minus
  | plus
  | complement
  | typeOf
  | void
  | delete
  deriving DecidableEq

/-- An operator between two operands. -/
inductive BinaryOp where
  | add
  | sub
  | mul
  | div
  | mod
  | pow
  | equal
  | notEqual
  | same
  | notSame
  | less
  | lessEqual
  | greater
  | greaterEqual
  | bitAnd
  | bitOr
  | bitXor
  | shiftLeft
  | shiftRight
  | shiftRightZero
  | isIn
  | instanceOf
  | and
  | or
  | nullish
  deriving DecidableEq

/-- An operator of assignment. -/
inductive AssignOp where
  /-- Plain assignment. -/
  | plain
  /-- Assignment of the result of an operator on the old value. -/
  | compound (op : BinaryOp)
  /-- Assignment if the old value is true. -/
  | and
  /-- Assignment if the old value is false. -/
  | or
  /-- Assignment if there is no old value. -/
  | nullish
  deriving DecidableEq

mutual

/-- An expression. -/
inductive Expr where
  | number (value : Number)
  | string (value : String)
  | bool (value : Bool)
  | null
  | regex (source flags : String)
  /-- A literal of a kind that no run supports. -/
  | otherLiteral
  | name (name : String)
  | paren (inner : Expr)
  /-- A template: its texts as written, and the expressions between them. -/
  | template (texts : List String) (parts : List Expr)
  | array (items : List Expr)
  /-- In an array or among arguments, all items of a list. -/
  | spread (list : Expr)
  /-- In an array, a place without an expression. -/
  | hole
  | object (fields : List Field)
  | unary (op : UnaryOp) (operand : Expr)
  /-- An increment or a decrement, before or after its operand. -/
  | update (before up : Bool) (operand : Expr)
  | binary (op : BinaryOp) (left right : Expr)
  | assign (op : AssignOp) (target : Binding) (value : Expr)
  | conditional (test yes no : Expr)
  | sequence (parts : List Expr)
  | member (object : Expr) (key : Name)
  | call (callee : Expr) (args : List Expr)
  /-- A call of what is no expression. -/
  | otherCall
  | construct (callee : Expr) (args : List Expr)
  | function (params : List Binding) (body : List Stmt)
  /-- A function whose body is an expression. -/
  | arrow (params : List Binding) (value : Expr)
  /-- A place to assign to that no run supports. -/
  | otherPlace
  /-- An expression that no run supports. -/
  | other

/-- The name of a member, or of a field in an object literal or pattern. -/
inductive Name where
  | text (name : String)
  | number (value : Number)
  | computed (value : Expr)
  /-- A name that no run supports. -/
  | other

/-- A field of an object literal. -/
inductive Field where
  | value (name : Name) (value : Expr)
  | shorthand (name : String)
  | method (name : Name) (params : List Binding) (body : List Stmt)
  | spread (value : Expr)
  /-- A shorthand with a default, which only a pattern may hold. -/
  | shorthandDefault (name : String) (value : Expr)
  /-- A field that no run supports. -/
  | other

/-- A pattern that values are bound to, or a target they are assigned to. -/
inductive Binding where
  | name (name : String)
  | array (items : List Binding)
  /-- In an array pattern, a place that binds nothing. -/
  | hole
  | object (fields : List FieldBinding)
  /-- A pattern with a default for what is undefined. -/
  | withDefault (target : Binding) (value : Expr)
  /-- The rest of a list. -/
  | rest (target : Binding)
  /-- A place that is named by an expression. -/
  | place (value : Expr)
  /-- A pattern that nothing can be bound to. -/
  | other

/-- A field of an object pattern. -/
inductive FieldBinding where
  | named (name : Name) (target : Binding)
  | shorthand (name : String) (default? : Option Expr)
  | rest (target : Binding)

/-- A variable that is declared. -/
inductive Declarator where
  | mk (target : Binding) (init : Option Expr)

/-- A case of a switch; the default case has no test. -/
inductive Case where
  | mk (test : Option Expr) (body : List Stmt)

/-- A statement. -/
inductive Stmt where
  | expr (value : Expr)
  | vars (decls : List Declarator)
  | function (name : String) (params : List Binding) (body : List Stmt)
  | empty
  | block (body : List Stmt)
  | branch (test : Expr) (yes : Stmt) (no : Option Stmt)
  | give (value : Option Expr)
  | leave
  | again
  | whileDo (test : Expr) (body : Stmt)
  | doWhile (body : Stmt) (test : Expr)
  /-- A loop that counts; it starts with an expression or a declaration. -/
  | count (start : Option Stmt) (test update : Option Expr) (body : Stmt)
  /-- A loop over the items of a list, which declares what it binds or assigns to it. -/
  | eachOf (declares : Bool) (target : Binding) (list : Expr) (body : Stmt)
  /-- A loop over the keys of an object. -/
  | eachIn (declares : Bool) (target : Binding) (object : Expr) (body : Stmt)
  | switch (value : Expr) (cases : List Case)
  | throw (value : Expr)
  /-- A body, what is done after a failure, with a pattern for its message, and what is done in
  any case. -/
  | attempt (body : List Stmt) (param : Option Binding) (handler finalizer : Option (List Stmt))
  /-- A statement that no run supports. -/
  | other

end

/-- The body of a function. -/
inductive Body where
  | expr (value : Expr)
  | block (stmts : List Stmt)

instance : Inhabited Expr := ⟨.other⟩
instance : Inhabited Binding := ⟨.other⟩
instance : Inhabited Stmt := ⟨.other⟩

end Scrape.Script
