import Scrape.Script.Syntax

/-!
# Script — Target

Expressions that turn out to be what is assigned or bound to.  A pattern looks like an expression
until the mark after it is seen, so it is read as an expression and reread here.
-/

namespace Scrape.Script

/-- Whether the expression can stand in a pattern as a place to assign to, at least to the eye. -/
def Expr.looksLikePlace : Expr → Bool
  | .member ..   => true
  | .call ..     => true
  | .otherCall   => true
  | .construct .. => true
  | .number ..   => true
  | .string ..   => true
  | .bool ..     => true
  | .null        => true
  | .regex ..    => true
  | .otherLiteral => true
  | .function .. => true
  | .paren ..    => true
  | .template .. => true
  | _            => false

mutual

/-- The binding that an expression stands for inside a pattern; `assigned` if the pattern is
assigned to and not declared.  There is none if it holds a field that no pattern may have. -/
def Expr.binding? (assigned : Bool) : Expr → Option Binding
  | .name n              => some (.name n)
  | .array items         => (bindings? assigned items).map .array
  | .object fields       => (fieldBindings? assigned fields).map .object
  | .assign .plain t v   => some (.withDefault t v)
  | e                    => some (if assigned && e.looksLikePlace then .place e else .other)

/-- The bindings that a list of expressions stands for.  All items of a list can be bound only at
the end, and are left out elsewhere. -/
def bindings? (assigned : Bool) : List Expr → Option (List Binding)
  | []              => some []
  | [.spread e]     => (e.binding? assigned).map fun b => [.rest b]
  | .spread _ :: es => bindings? assigned es
  | .hole :: es     => (bindings? assigned es).map (.hole :: ·)
  | e :: es         =>
    match e.binding? assigned, bindings? assigned es with
    | some b, some bs => some (b :: bs)
    | _,      _       => none

/-- The bindings that the fields of an object literal stand for. -/
def fieldBindings? (assigned : Bool) : List Field → Option (List FieldBinding)
  | []      => some []
  | f :: fs =>
    match f.binding? assigned, fieldBindings? assigned fs with
    | some b, some bs => some (b :: bs)
    | _,      _       => none

/-- The binding that a field of an object literal stands for. -/
def Field.binding? (assigned : Bool) : Field → Option FieldBinding
  | .value name e         => (e.binding? assigned).map (.named name ·)
  | .shorthand n          => some (.shorthand n none)
  | .shorthandDefault n e => some (.shorthand n (some e))
  | .spread e             => (e.binding? assigned).map .rest
  | .method ..            => none
  | .other                => none

end

/-- The target of a plain assignment, if the expression can be one. -/
def Expr.assignTarget? : Expr → Option Binding
  | .name n      => some (.name n)
  | .member o k  => some (.place (.member o k))
  | .paren e     => some (.place (.paren e))
  | .otherPlace  => some .other
  | .array items => (bindings? true items).map .array
  | .object fs   => (fieldBindings? true fs).map .object
  | _            => none

/-- The target of an assignment that also reads it, if the expression can be one. -/
def Expr.updateTarget? : Expr → Option Binding
  | .array _  => none
  | .object _ => none
  | e         => e.assignTarget?

/-- The target of a loop over items, if the expression can be one. -/
def Expr.loopTarget? : Expr → Option Binding
  | .name n      => some (.name n)
  | .array items => (bindings? true items).map .array
  | .object fs   => (fieldBindings? true fs).map .object
  | e            => some (.place e)

end Scrape.Script
