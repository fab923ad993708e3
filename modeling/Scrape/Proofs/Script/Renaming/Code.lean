import Mathlib.Data.List.Forall2
import Scrape.Script.Syntax

/-!
# Script — Renaming — Code

Code that is the same up to the names of its variables.  A renaming (`Renaming`) says which names
stand for each other, and code is renamed if all else in it is kept (`Stmt.Renamed` and its
siblings).  A name of a member or of a field is no name of a variable, and is kept; so a field that
is written by the name of a variable alone keeps that too.
-/

namespace Scrape.Script

/-- The names that mean something where no variable has them, or that are given to a script. -/
def reservedNames : List String :=
  ["result", "baseUrl", "undefined", "NaN", "Infinity", "context", "java", "console", "JSON", "Math",
    "Object", "Array", "Number", "String", "Boolean", "RegExp", "parseInt", "parseFloat", "isNaN",
    "isFinite", "encodeURIComponent", "decodeURIComponent"]

/-- Which names of variables stand for each other in two pieces of code.  No name stands for two, and
a name that is reserved stands for itself if for any.  A name that stands for none is left out of
the code, and what it holds is not seen by it. -/
structure Renaming where
  names : String → String → Prop
  injective {a b c : String} : names a c → names b c → a = b
  unique {a b c : String} : names a b → names a c → b = c
  reserved {a b : String} : names a b → a ∈ reservedNames ∨ b ∈ reservedNames → a = b

namespace Renaming

/-- The renaming that keeps the names which satisfy `p`, and leaves out all others. -/
def keeping (p : String → Prop) : Renaming where
  names a b := a = b ∧ p a
  injective h h' := h.1.trans h'.1.symm
  unique h h' := h.1.symm.trans h'.1
  reserved h _ := h.1

/-- A name that stands for another one is not reserved, and neither is the other one. -/
theorem eq_or_not_mem (r : Renaming) {a b : String} (hab : r.names a b) :
    a = b ∨ a ∉ reservedNames ∧ b ∉ reservedNames := by
  by_cases h : a ∈ reservedNames ∨ b ∈ reservedNames
  · exact .inl (r.reserved hab h)
  · exact .inr (not_or.mp h)

theorem eq_iff (r : Renaming) {a b c : String} (hab : r.names a b) (hc : c ∈ reservedNames) :
    a = c ↔ b = c := by
  constructor
  · rintro rfl
    exact (r.reserved hab (.inl hc)).symm
  · rintro rfl
    exact r.reserved hab (.inr hc)

/-- No name stands for another one. -/
def KeepsNames (r : Renaming) : Prop := ∀ a b, r.names a b → a = b

/-- The names are left out of the code, one on each side. -/
def LeavesOut (r : Renaming) (a b : String) : Prop := (∀ c, ¬ r.names a c) ∧ ∀ c, ¬ r.names c b

end Renaming

variable (r : Renaming)

mutual

/-- The second expression is the first one renamed. -/
inductive Expr.Renamed : Expr → Expr → Prop
  | number (x : Number) : Expr.Renamed (.number x) (.number x)
  | string (s : String) : Expr.Renamed (.string s) (.string s)
  | bool (b : Bool) : Expr.Renamed (.bool b) (.bool b)
  | null : Expr.Renamed .null .null
  | regex (source flags : String) : Expr.Renamed (.regex source flags) (.regex source flags)
  | otherLiteral : Expr.Renamed .otherLiteral .otherLiteral
  | name {a b : String} : r.names a b → Expr.Renamed (.name a) (.name b)
  | paren {e e' : Expr} : Expr.Renamed e e' → Expr.Renamed (.paren e) (.paren e')
  | template (texts : List String) {parts parts' : List Expr} :
      List.Forall₂ Expr.Renamed parts parts' →
      Expr.Renamed (.template texts parts) (.template texts parts')
  | array {items items' : List Expr} :
      List.Forall₂ Expr.Renamed items items' → Expr.Renamed (.array items) (.array items')
  | spread {e e' : Expr} : Expr.Renamed e e' → Expr.Renamed (.spread e) (.spread e')
  | hole : Expr.Renamed .hole .hole
  | object {fields fields' : List Field} :
      List.Forall₂ Field.Renamed fields fields' → Expr.Renamed (.object fields) (.object fields')
  | unary (op : UnaryOp) {e e' : Expr} :
      Expr.Renamed e e' → Expr.Renamed (.unary op e) (.unary op e')
  | update (before up : Bool) {e e' : Expr} :
      Expr.Renamed e e' → Expr.Renamed (.update before up e) (.update before up e')
  | binary (op : BinaryOp) {a a' b b' : Expr} : Expr.Renamed a a' → Expr.Renamed b b' →
      Expr.Renamed (.binary op a b) (.binary op a' b')
  | assign (op : AssignOp) {b b' : Binding} {e e' : Expr} :
      Binding.Renamed b b' → Expr.Renamed e e' → Expr.Renamed (.assign op b e) (.assign op b' e')
  | conditional {a a' b b' c c' : Expr} :
      Expr.Renamed a a' → Expr.Renamed b b' → Expr.Renamed c c' →
      Expr.Renamed (.conditional a b c) (.conditional a' b' c')
  | sequence {parts parts' : List Expr} :
      List.Forall₂ Expr.Renamed parts parts' → Expr.Renamed (.sequence parts) (.sequence parts')
  | member {e e' : Expr} {key key' : Name} : Expr.Renamed e e' → Name.Renamed key key' →
      Expr.Renamed (.member e key) (.member e' key')
  | call {e e' : Expr} {args args' : List Expr} :
      Expr.Renamed e e' → List.Forall₂ Expr.Renamed args args' →
      Expr.Renamed (.call e args) (.call e' args')
  | otherCall : Expr.Renamed .otherCall .otherCall
  | construct {e e' : Expr} {args args' : List Expr} :
      Expr.Renamed e e' → List.Forall₂ Expr.Renamed args args' →
      Expr.Renamed (.construct e args) (.construct e' args')
  | function {params params' : List Binding} {body body' : List Stmt} :
      List.Forall₂ Binding.Renamed params params' → List.Forall₂ Stmt.Renamed body body' →
      Expr.Renamed (.function params body) (.function params' body')
  | arrow {params params' : List Binding} {e e' : Expr} :
      List.Forall₂ Binding.Renamed params params' → Expr.Renamed e e' →
      Expr.Renamed (.arrow params e) (.arrow params' e')
  | otherPlace : Expr.Renamed .otherPlace .otherPlace
  | other : Expr.Renamed .other .other

/-- The second name of a member or field is the first one, with what it is computed from renamed. -/
inductive Name.Renamed : Name → Name → Prop
  | text (s : String) : Name.Renamed (.text s) (.text s)
  | number (x : Number) : Name.Renamed (.number x) (.number x)
  | computed {e e' : Expr} : Expr.Renamed e e' → Name.Renamed (.computed e) (.computed e')
  | other : Name.Renamed .other .other

/-- The second field is the first one renamed.  A shorthand keeps its name, which is its key. -/
inductive Field.Renamed : Field → Field → Prop
  | value {key key' : Name} {e e' : Expr} : Name.Renamed key key' → Expr.Renamed e e' →
      Field.Renamed (.value key e) (.value key' e')
  | shorthand {a : String} : r.names a a → Field.Renamed (.shorthand a) (.shorthand a)
  | method {key key' : Name} {params params' : List Binding} {body body' : List Stmt} :
      Name.Renamed key key' → List.Forall₂ Binding.Renamed params params' →
      List.Forall₂ Stmt.Renamed body body' →
      Field.Renamed (.method key params body) (.method key' params' body')
  | spread {e e' : Expr} : Expr.Renamed e e' → Field.Renamed (.spread e) (.spread e')
  | shorthandDefault (a : String) {e e' : Expr} :
      Expr.Renamed e e' → Field.Renamed (.shorthandDefault a e) (.shorthandDefault a e')
  | other : Field.Renamed .other .other

/-- The second pattern is the first one renamed. -/
inductive Binding.Renamed : Binding → Binding → Prop
  | name {a b : String} : r.names a b → Binding.Renamed (.name a) (.name b)
  | array {items items' : List Binding} :
      List.Forall₂ Binding.Renamed items items' → Binding.Renamed (.array items) (.array items')
  | hole : Binding.Renamed .hole .hole
  | object {fields fields' : List FieldBinding} :
      List.Forall₂ FieldBinding.Renamed fields fields' →
      Binding.Renamed (.object fields) (.object fields')
  | withDefault {b b' : Binding} {e e' : Expr} : Binding.Renamed b b' → Expr.Renamed e e' →
      Binding.Renamed (.withDefault b e) (.withDefault b' e')
  | rest {b b' : Binding} : Binding.Renamed b b' → Binding.Renamed (.rest b) (.rest b')
  | place {e e' : Expr} : Expr.Renamed e e' → Binding.Renamed (.place e) (.place e')
  | other : Binding.Renamed .other .other

/-- The second field of a pattern is the first one renamed.  A shorthand keeps its name, which is
its key. -/
inductive FieldBinding.Renamed : FieldBinding → FieldBinding → Prop
  | named {key key' : Name} {b b' : Binding} : Name.Renamed key key' → Binding.Renamed b b' →
      FieldBinding.Renamed (.named key b) (.named key' b')
  | shorthand {a : String} {default? default'? : Option Expr} : r.names a a →
      Option.Rel Expr.Renamed default? default'? →
      FieldBinding.Renamed (.shorthand a default?) (.shorthand a default'?)
  | rest {b b' : Binding} : Binding.Renamed b b' → FieldBinding.Renamed (.rest b) (.rest b')

/-- The second declaration is the first one renamed. -/
inductive Declarator.Renamed : Declarator → Declarator → Prop
  | mk {b b' : Binding} {init init' : Option Expr} : Binding.Renamed b b' →
      Option.Rel Expr.Renamed init init' → Declarator.Renamed (.mk b init) (.mk b' init')

/-- The second case is the first one renamed. -/
inductive Case.Renamed : Case → Case → Prop
  | mk {test test' : Option Expr} {body body' : List Stmt} : Option.Rel Expr.Renamed test test' →
      List.Forall₂ Stmt.Renamed body body' → Case.Renamed (.mk test body) (.mk test' body')

/-- The second pattern takes the message of a failure like the first one.  The message can name a
variable, so that names are kept if it is seen; in a variable that the code leaves out it is not. -/
inductive CatchRenamed : Option Binding → Option Binding → Prop
  | none : CatchRenamed none none
  | kept {b b' : Binding} :
      r.KeepsNames → Binding.Renamed b b' → CatchRenamed (some b) (some b')
  | unseen {a b : String} :
      r.LeavesOut a b → CatchRenamed (some (.name a)) (some (.name b))

/-- The second statement is the first one renamed. -/
inductive Stmt.Renamed : Stmt → Stmt → Prop
  | expr {e e' : Expr} : Expr.Renamed e e' → Stmt.Renamed (.expr e) (.expr e')
  | vars {decls decls' : List Declarator} :
      List.Forall₂ Declarator.Renamed decls decls' → Stmt.Renamed (.vars decls) (.vars decls')
  | function {a b : String} {params params' : List Binding} {body body' : List Stmt} :
      r.names a b → List.Forall₂ Binding.Renamed params params' →
      List.Forall₂ Stmt.Renamed body body' →
      Stmt.Renamed (.function a params body) (.function b params' body')
  | empty : Stmt.Renamed .empty .empty
  | block {body body' : List Stmt} :
      List.Forall₂ Stmt.Renamed body body' → Stmt.Renamed (.block body) (.block body')
  | branch {test test' : Expr} {yes yes' : Stmt} {no no' : Option Stmt} :
      Expr.Renamed test test' → Stmt.Renamed yes yes' → Option.Rel Stmt.Renamed no no' →
      Stmt.Renamed (.branch test yes no) (.branch test' yes' no')
  | give {e e' : Option Expr} :
      Option.Rel Expr.Renamed e e' → Stmt.Renamed (.give e) (.give e')
  | leave : Stmt.Renamed .leave .leave
  | again : Stmt.Renamed .again .again
  | whileDo {test test' : Expr} {body body' : Stmt} : Expr.Renamed test test' →
      Stmt.Renamed body body' → Stmt.Renamed (.whileDo test body) (.whileDo test' body')
  | doWhile {test test' : Expr} {body body' : Stmt} : Stmt.Renamed body body' →
      Expr.Renamed test test' → Stmt.Renamed (.doWhile body test) (.doWhile body' test')
  | count {start start' : Option Stmt} {test test' update update' : Option Expr}
      {body body' : Stmt} : Option.Rel Stmt.Renamed start start' →
      Option.Rel Expr.Renamed test test' → Option.Rel Expr.Renamed update update' →
      Stmt.Renamed body body' →
      Stmt.Renamed (.count start test update body) (.count start' test' update' body')
  | eachOf (declares : Bool) {b b' : Binding} {e e' : Expr} {body body' : Stmt} :
      Binding.Renamed b b' → Expr.Renamed e e' → Stmt.Renamed body body' →
      Stmt.Renamed (.eachOf declares b e body) (.eachOf declares b' e' body')
  | eachIn (declares : Bool) {b b' : Binding} {e e' : Expr} {body body' : Stmt} :
      Binding.Renamed b b' → Expr.Renamed e e' → Stmt.Renamed body body' →
      Stmt.Renamed (.eachIn declares b e body) (.eachIn declares b' e' body')
  | switch {e e' : Expr} {cases cases' : List Case} : Expr.Renamed e e' →
      List.Forall₂ Case.Renamed cases cases' → Stmt.Renamed (.switch e cases) (.switch e' cases')
  | throw {e e' : Expr} : Expr.Renamed e e' → Stmt.Renamed (.throw e) (.throw e')
  | attempt {body body' : List Stmt} {param param' : Option Binding}
      {handler handler' finalizer finalizer' : Option (List Stmt)} :
      List.Forall₂ Stmt.Renamed body body' → CatchRenamed param param' →
      Option.Rel (List.Forall₂ Stmt.Renamed) handler handler' →
      Option.Rel (List.Forall₂ Stmt.Renamed) finalizer finalizer' →
      Stmt.Renamed (.attempt body param handler finalizer) (.attempt body' param' handler' finalizer')
  | other : Stmt.Renamed .other .other

end

/-- The second body of a function is the first one renamed. -/
inductive Body.Renamed : Body → Body → Prop
  | expr {e e' : Expr} : Expr.Renamed r e e' → Body.Renamed (.expr e) (.expr e')
  | block {body body' : List Stmt} :
      List.Forall₂ (Stmt.Renamed r) body body' → Body.Renamed (.block body) (.block body')

end Scrape.Script
