import Mathlib.Order.MinMax
import Scrape.Script.Target

/-!
# Script — Bracket — Tree

How deep the brackets of a script are nested, told by its tree: parentheses around an expression,
array and object literals and patterns, lists of arguments, computed keys, blocks and templates.  An
expression that is reread as a pattern is nested as deep as before at most (`nesting_of_binding?`).
-/

namespace Scrape.Script

/-- The most that a number comes to on the items of a list. -/
def deepest {α : Type} (f : α → Nat) (items : List α) : Nat :=
  items.foldr (fun a n => max (f a) n) 0

section

variable {α : Type} {f : α → Nat}

@[simp] theorem deepest_nil : deepest f [] = 0 := rfl

@[simp] theorem deepest_cons (a : α) (items : List α) :
    deepest f (a :: items) = max (f a) (deepest f items) := rfl

@[simp] theorem deepest_append (items more : List α) :
    deepest f (items ++ more) = max (deepest f items) (deepest f more) := by
  induction items with
  | nil => simp
  | cons a items ih => simp [ih, Nat.max_assoc]

@[simp] theorem deepest_reverse (items : List α) : deepest f items.reverse = deepest f items := by
  induction items with
  | nil => rfl
  | cons a items ih => simp [ih, Nat.max_comm]

end

mutual

/-- How deep the brackets of an expression are nested. -/
def Expr.nesting : Expr → Nat
  | .number _ | .string _ | .bool _ | .null | .regex .. | .otherLiteral | .name _ | .hole => 0
  | .otherCall | .otherPlace | .other => 0
  | .paren e              => e.nesting + 1
  | .template _ parts     => exprsNesting parts + 1
  | .array items          => exprsNesting items + 1
  | .spread e             => e.nesting
  | .object fields        => fieldsNesting fields + 1
  | .unary _ e            => e.nesting
  | .update _ _ e         => e.nesting
  | .binary _ a b         => max a.nesting b.nesting
  | .assign _ t v         => max t.nesting v.nesting
  | .conditional t a b    => max t.nesting (max a.nesting b.nesting)
  | .sequence parts       => exprsNesting parts
  | .member e key         => max e.nesting key.nesting
  | .call e args          => max e.nesting (exprsNesting args + 1)
  | .construct e []       => e.nesting
  | .construct e (a :: l) => max e.nesting (max a.nesting (exprsNesting l) + 1)
  | .function ps body     => max (bindingsNesting ps) (stmtsNesting body + 1)
  | .arrow ps e           => max (bindingsNesting ps) e.nesting

/-- How deep the brackets of expressions are nested. -/
def exprsNesting : List Expr → Nat
  | []      => 0
  | e :: es => max e.nesting (exprsNesting es)

/-- How deep the brackets of an expression are nested, if there is one. -/
def exprNesting? : Option Expr → Nat
  | none   => 0
  | some e => e.nesting

/-- How deep the brackets of a name are nested. -/
def Name.nesting : Name → Nat
  | .text _ | .number _ | .other => 0
  | .computed e => e.nesting + 1

/-- How deep the brackets of a field are nested. -/
def Field.nesting : Field → Nat
  | .shorthand _ | .other => 0
  | .value name e         => max name.nesting e.nesting
  | .method name ps body  => max name.nesting (max (bindingsNesting ps) (stmtsNesting body + 1))
  | .spread e             => e.nesting
  | .shorthandDefault _ e => e.nesting

/-- How deep the brackets of fields are nested. -/
def fieldsNesting : List Field → Nat
  | []      => 0
  | f :: fs => max f.nesting (fieldsNesting fs)

/-- How deep the brackets of a pattern are nested. -/
def Binding.nesting : Binding → Nat
  | .name _ | .hole | .other => 0
  | .array items     => bindingsNesting items + 1
  | .object fields   => fieldBindingsNesting fields + 1
  | .withDefault t e => max t.nesting e.nesting
  | .rest t          => t.nesting
  | .place e         => e.nesting

/-- How deep the brackets of patterns are nested. -/
def bindingsNesting : List Binding → Nat
  | []      => 0
  | b :: bs => max b.nesting (bindingsNesting bs)

/-- How deep the brackets of a pattern are nested, if there is one. -/
def bindingNesting? : Option Binding → Nat
  | none   => 0
  | some b => b.nesting

/-- How deep the brackets of a field of a pattern are nested. -/
def FieldBinding.nesting : FieldBinding → Nat
  | .named name t  => max name.nesting t.nesting
  | .shorthand _ e => exprNesting? e
  | .rest t        => t.nesting

/-- How deep the brackets of fields of a pattern are nested. -/
def fieldBindingsNesting : List FieldBinding → Nat
  | []      => 0
  | f :: fs => max f.nesting (fieldBindingsNesting fs)

/-- How deep the brackets of a declaration are nested. -/
def Declarator.nesting : Declarator → Nat
  | .mk t e => max t.nesting (exprNesting? e)

/-- How deep the brackets of declarations are nested. -/
def declaratorsNesting : List Declarator → Nat
  | []      => 0
  | d :: ds => max d.nesting (declaratorsNesting ds)

/-- How deep the brackets of a case are nested. -/
def Case.nesting : Case → Nat
  | .mk e body => max (exprNesting? e) (stmtsNesting body)

/-- How deep the brackets of cases are nested. -/
def casesNesting : List Case → Nat
  | []      => 0
  | c :: cs => max c.nesting (casesNesting cs)

/-- How deep the brackets of a statement are nested. -/
def Stmt.nesting : Stmt → Nat
  | .empty | .leave | .again | .other => 0
  | .expr e              => e.nesting
  | .vars ds             => declaratorsNesting ds
  | .function _ ps body  => max (bindingsNesting ps) (stmtsNesting body + 1)
  | .block body          => stmtsNesting body + 1
  | .branch e yes no     => max e.nesting (max yes.nesting (stmtNesting? no))
  | .give e              => exprNesting? e
  | .whileDo e body      => max e.nesting body.nesting
  | .doWhile body e      => max body.nesting e.nesting
  | .count s t u body    =>
    max (stmtNesting? s) (max (exprNesting? t) (max (exprNesting? u) body.nesting))
  | .eachOf _ t e body   => max t.nesting (max e.nesting body.nesting)
  | .eachIn _ t e body   => max t.nesting (max e.nesting body.nesting)
  | .switch e cases      => max e.nesting (casesNesting cases + 1)
  | .throw e             => e.nesting
  | .attempt body p h f  =>
    max (stmtsNesting body + 1) (max (bindingNesting? p) (max (blockNesting? h) (blockNesting? f)))

/-- How deep the brackets of statements are nested. -/
def stmtsNesting : List Stmt → Nat
  | []      => 0
  | s :: ss => max s.nesting (stmtsNesting ss)

/-- How deep the brackets of a statement are nested, if there is one. -/
def stmtNesting? : Option Stmt → Nat
  | none   => 0
  | some s => s.nesting

/-- How deep the brackets of a block are nested, if there is one. -/
def blockNesting? : Option (List Stmt) → Nat
  | none      => 0
  | some body => stmtsNesting body + 1

end

/-! ### Lists of parts -/

@[simp] theorem exprsNesting_eq (es : List Expr) : exprsNesting es = deepest Expr.nesting es := by
  induction es with
  | nil => rfl
  | cons e es ih => rw [exprsNesting, ih, deepest_cons]

@[simp] theorem fieldsNesting_eq (fs : List Field) :
    fieldsNesting fs = deepest Field.nesting fs := by
  induction fs with
  | nil => rfl
  | cons f fs ih => rw [fieldsNesting, ih, deepest_cons]

@[simp] theorem bindingsNesting_eq (bs : List Binding) :
    bindingsNesting bs = deepest Binding.nesting bs := by
  induction bs with
  | nil => rfl
  | cons b bs ih => rw [bindingsNesting, ih, deepest_cons]

@[simp] theorem fieldBindingsNesting_eq (fs : List FieldBinding) :
    fieldBindingsNesting fs = deepest FieldBinding.nesting fs := by
  induction fs with
  | nil => rfl
  | cons f fs ih => rw [fieldBindingsNesting, ih, deepest_cons]

@[simp] theorem declaratorsNesting_eq (ds : List Declarator) :
    declaratorsNesting ds = deepest Declarator.nesting ds := by
  induction ds with
  | nil => rfl
  | cons d ds ih => rw [declaratorsNesting, ih, deepest_cons]

@[simp] theorem casesNesting_eq (cs : List Case) : casesNesting cs = deepest Case.nesting cs := by
  induction cs with
  | nil => rfl
  | cons c cs ih => rw [casesNesting, ih, deepest_cons]

@[simp] theorem stmtsNesting_eq (ss : List Stmt) : stmtsNesting ss = deepest Stmt.nesting ss := by
  induction ss with
  | nil => rfl
  | cons s ss ih => rw [stmtsNesting, ih, deepest_cons]

@[simp] theorem Expr.nesting_sequence (parts : List Expr) :
    (Expr.sequence parts).nesting = deepest Expr.nesting parts := by
  rw [Expr.nesting, exprsNesting_eq]

@[simp] theorem Stmt.nesting_vars (ds : List Declarator) :
    (Stmt.vars ds).nesting = deepest Declarator.nesting ds := by
  rw [Stmt.nesting, declaratorsNesting_eq]

/-! ### Expressions that are reread -/

theorem nesting_place_or_other (placed : Bool) (e : Expr) :
    (if placed then Binding.place e else .other).nesting ≤ e.nesting := by
  cases placed with
  | false => exact Nat.zero_le _
  | true => exact Nat.le_refl _

theorem bindings?_cons {assigned : Bool} {e : Expr} {es : List Expr} {bs : List Binding}
    (hspread : ∀ l, e ≠ .spread l) (hhole : e ≠ .hole)
    (h : bindings? assigned (e :: es) = some bs) :
    ∃ b r, e.binding? assigned = some b ∧ bindings? assigned es = some r ∧ bs = b :: r := by
  rw [bindings?] at h
  · split at h
    · next b r hb hr => exact ⟨b, r, hb, hr, by simpa using h.symm⟩
    · cases h
  · rintro l rfl
    exact absurd rfl (hspread l)
  · rintro l rfl
    exact absurd rfl (hspread l)
  · exact hhole

mutual

/-- **A pattern is nested no deeper** than the expression that it was read as. -/
theorem nesting_of_binding? (assigned : Bool) : ∀ (e : Expr) {b : Binding},
    e.binding? assigned = some b → b.nesting ≤ e.nesting
  | .array items, _, h => by
    obtain ⟨bs, hbs, rfl⟩ := Option.map_eq_some_iff.mp h
    exact Nat.succ_le_succ (nesting_of_bindings? assigned items hbs)
  | .object fields, _, h => by
    obtain ⟨fs, hfs, rfl⟩ := Option.map_eq_some_iff.mp h
    exact Nat.succ_le_succ (nesting_of_fieldBindings? assigned fields hfs)
  | .name _, _, h => by
    cases h
    exact Nat.le_refl _
  | .assign op t v, _, h => by
    cases op with
    | plain =>
      cases h
      exact Nat.le_refl _
    | compound | and | or | nullish =>
      cases h
      exact nesting_place_or_other ..
  | .number _, _, h | .string _, _, h | .bool _, _, h | .null, _, h | .regex .., _, h
  | .otherLiteral, _, h | .paren _, _, h | .template .., _, h | .spread _, _, h | .hole, _, h
  | .unary .., _, h | .update .., _, h | .binary .., _, h | .conditional .., _, h
  | .sequence _, _, h | .member .., _, h | .call .., _, h | .otherCall, _, h
  | .construct .., _, h | .function .., _, h | .arrow .., _, h | .otherPlace, _, h
  | .other, _, h => by
    cases h
    exact nesting_place_or_other ..

theorem nesting_of_bindings? (assigned : Bool) : ∀ (es : List Expr) {bs : List Binding},
    bindings? assigned es = some bs → bindingsNesting bs ≤ exprsNesting es
  | [], _, h => by
    cases h
    exact Nat.le_refl 0
  | e :: es, bs, h => by
    by_cases hspread : ∃ l, e = .spread l
    · obtain ⟨l, rfl⟩ := hspread
      cases es with
      | nil =>
        obtain ⟨b, hb, rfl⟩ := Option.map_eq_some_iff.mp h
        have hrest := nesting_of_binding? assigned l hb
        exact max_le_max hrest (Nat.le_refl 0)
      | cons e' es =>
        exact Nat.le_trans (nesting_of_bindings? assigned (e' :: es) h) (Nat.le_max_right _ _)
    · by_cases hhole : e = .hole
      · obtain rfl := hhole
        obtain ⟨r, hr, rfl⟩ := Option.map_eq_some_iff.mp h
        exact max_le_max (Nat.le_refl 0) (nesting_of_bindings? assigned es hr)
      · obtain ⟨b, r, hb, hr, rfl⟩ := bindings?_cons (fun l hl => hspread ⟨l, hl⟩) hhole h
        exact max_le_max (nesting_of_binding? assigned e hb)
          (nesting_of_bindings? assigned es hr)

theorem nesting_of_fieldBindings? (assigned : Bool) : ∀ (fs : List Field) {bs : List FieldBinding},
    fieldBindings? assigned fs = some bs → fieldBindingsNesting bs ≤ fieldsNesting fs
  | [], _, h => by
    cases h
    exact Nat.le_refl 0
  | f :: fs, _, h => by
    rw [fieldBindings?] at h
    split at h
    · next b r hb hr =>
      cases h
      exact max_le_max (nesting_of_fieldBinding? assigned f hb)
        (nesting_of_fieldBindings? assigned fs hr)
    · cases h

theorem nesting_of_fieldBinding? (assigned : Bool) : ∀ (f : Field) {b : FieldBinding},
    f.binding? assigned = some b → b.nesting ≤ f.nesting
  | .value name e, _, h => by
    obtain ⟨b, hb, rfl⟩ := Option.map_eq_some_iff.mp h
    exact max_le_max (Nat.le_refl _) (nesting_of_binding? assigned e hb)
  | .spread e, _, h => by
    obtain ⟨b, hb, rfl⟩ := Option.map_eq_some_iff.mp h
    exact nesting_of_binding? assigned e hb
  | .shorthand _, _, h | .shorthandDefault .., _, h => by
    cases h
    exact Nat.le_refl _
  | .method .., _, h | .other, _, h => by cases h

end

theorem nesting_of_assignTarget? {e : Expr} {b : Binding} (h : e.assignTarget? = some b) :
    b.nesting ≤ e.nesting := by
  cases e with
  | array items =>
    obtain ⟨bs, hbs, rfl⟩ := Option.map_eq_some_iff.mp h
    exact Nat.succ_le_succ (nesting_of_bindings? true items hbs)
  | object fields =>
    obtain ⟨fs, hfs, rfl⟩ := Option.map_eq_some_iff.mp h
    exact Nat.succ_le_succ (nesting_of_fieldBindings? true fields hfs)
  | name | member | paren | otherPlace =>
    cases h
    exact Nat.le_refl _
  | _ => cases h

theorem nesting_of_updateTarget? {e : Expr} {b : Binding} (h : e.updateTarget? = some b) :
    b.nesting ≤ e.nesting := by
  cases e with
  | array | object => cases h
  | _ => exact nesting_of_assignTarget? h

theorem nesting_of_loopTarget? {e : Expr} {b : Binding} (h : e.loopTarget? = some b) :
    b.nesting ≤ e.nesting := by
  cases e with
  | array items =>
    obtain ⟨bs, hbs, rfl⟩ := Option.map_eq_some_iff.mp h
    exact Nat.succ_le_succ (nesting_of_bindings? true items hbs)
  | object fields =>
    obtain ⟨fs, hfs, rfl⟩ := Option.map_eq_some_iff.mp h
    exact Nat.succ_le_succ (nesting_of_fieldBindings? true fields hfs)
  | _ =>
    cases h
    exact Nat.le_refl _

end Scrape.Script
