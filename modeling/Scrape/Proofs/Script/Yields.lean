import Mathlib.Data.List.Forall2
import Scrape.Proofs.Script.Member

/-!
# Script — Yields

Expressions that have a value and leave the state as it is (`Yields`): variables, numbers, members,
operators, and calls of the methods of texts and arrays on such expressions.  Where an operator
fails, so does the expression (`run_eval_add`).
-/

namespace Scrape.Script

open Run

/-- The expression has the value in a state, which it leaves as it is. -/
def Yields (depth : Nat) (s : State) (e : Expr) (v : Value) : Prop :=
  ((interp put depth).eval e).run s = (.ok v, s)

namespace Yields

variable {depth : Nat} {s : State} {e o a b : Expr} {v w : Value} {args : List Expr}
  {values items : List Value} {t method x key : String}

theorem unique (h : Yields depth s e v) (h' : Yields depth s e w) : v = w :=
  Except.ok.inj (Prod.mk.inj (h.symm.trans h')).1

theorem ofLookup (h : s.lookup? x = some v) : Yields (depth + 1) s (.name x) v := run_valueOf h

theorem number (x : Number) : Yields (depth + 1) s (.number x) (.number x) := rfl

/-! ### Members -/

/-- What has a value is not the name of something without one. -/
theorem run_namespaceOf? (h : Yields depth s e v) :
    (Interp.namespaceOf? e).run s = (.ok none, s) := by
  cases e with
  | name n =>
    change (Except.ok (if isNamespace n && (s.lookup? n).isNone then some n else none), s) = _
    cases hlookup : s.lookup? n with
    | some w => rw [Option.isNone_some, Bool.and_false]; rfl
    | none =>
      cases depth with
      | zero => cases h
      | succ depth =>
        have hnone : (lookup? n).run s = (.ok none, s) := hlookup ▸ rfl
        have hrun := (run_bind_of_ok hnone).symm.trans h
        dsimp only at hrun
        split at hrun
        · rfl
        · rfl
        · rfl
        · cases hrun
  | _ => rfl

/-- What has a value is not the name of the constants of mathematics. -/
theorem run_isMath (h : Yields depth s e v) : (Interp.isMath e).run s = (.ok false, s) := by
  cases e with
  | name n =>
    change (Except.ok (decide (n = "Math") && (s.lookup? n).isNone), s) = _
    have hspace := h.run_namespaceOf?
    change (Except.ok (if isNamespace n && (s.lookup? n).isNone then some n else none), s) = _
      at hspace
    by_cases hn : n = "Math"
    · subst hn
      cases hlookup : (s.lookup? "Math").isNone with
      | false => rfl
      | true =>
        rw [hlookup] at hspace
        cases hspace
    · rw [decide_eq_false hn, Bool.false_and]
  | _ => rfl

theorem member (h : Yields depth s o v) {name : Name}
    (hkey : ((interp put depth).memberKey name).run s = (.ok key, s)) (hv : v.isNullish = false) :
    Yields (depth + 1) s (.member o name) (v.get key) := by
  refine (run_bind_of_ok h.run_isMath).trans ((run_bind_of_ok h).trans
    ((run_bind_of_ok hkey).trans ?_))
  rw [hv]
  rfl

/-- The member of a text at a place in brackets. -/
theorem index (h : Yields depth s o (.string t)) (hi : Yields depth s a v) :
    Yields (depth + 1) s (.member o (.computed a)) ((Value.string t).get v.text) :=
  h.member ((run_bind_of_ok hi).trans rfl) rfl

/-- The length of a text. -/
theorem length (h : Yields depth s o (.string t)) :
    Yields (depth + 1) s (.member o (.text "length")) (.ofNat t.length) := by
  have hlength : (Value.string t).get "length" = .ofNat t.length := by simp [Value.get]
  exact hlength ▸ h.member rfl rfl

/-! ### Operators -/

theorem same (ha : Yields depth s a v) (hb : Yields depth s b w) :
    Yields (depth + 1) s (.binary .same a b) (.bool (v.same w)) :=
  (run_bind_of_ok ha).trans ((run_bind_of_ok hb).trans rfl)

/-- A sum is what the operator makes of the values. -/
theorem run_eval_add (ha : Yields depth s a v) (hb : Yields depth s b w) :
    ((interp put (depth + 1)).eval (.binary .add a b)).run s =
      ((BinaryOp.add.apply v w).mapError Subtype.val, s) := by
  refine (run_bind_of_ok ha).trans ((run_bind_of_ok hb).trans ?_)
  cases BinaryOp.add.apply v w <;> rfl

/-- The sum of two numbers. -/
theorem add {p q : Number} (ha : Yields depth s a (.number p)) (hb : Yields depth s b (.number q)) :
    Yields (depth + 1) s (.binary .add a b) (.number (p.add q)) :=
  run_eval_add ha hb

/-! ### Calls of methods -/

/-- An item of a list that has a value is neither a spread nor a gap. -/
theorem run_evalItems_cons (h : Yields depth s e v) (acc : List Value) (r : List Expr) :
    ((interp put depth).evalItems acc (e :: r)).run s =
      ((interp put depth).evalItems (v :: acc) r).run s := by
  cases depth with
  | zero => cases h
  | succ depth =>
    cases e with
    | spread e => cases h
    | hole => cases h
    | _ => exact run_bind_of_ok h

theorem run_evalItems (h : List.Forall₂ (Yields depth s) args values) (acc : List Value) :
    ((interp put depth).evalItems acc args).run s = (.ok (acc.reverse ++ values), s) := by
  induction h generalizing acc with
  | nil =>
    rw [List.append_nil]
    rfl
  | cons hfirst _ ih =>
    rw [run_evalItems_cons hfirst, ih, List.reverse_cons, List.append_assoc]
    rfl

/-- A call of a method that changes nothing. -/
theorem methodCall (ho : Yields depth s o w) (hargs : List.Forall₂ (Yields depth s) args values)
    (hreply : ((interp put depth).callMethod w method values).run s = (.ok (.plain v), s)) :
    Yields (depth + 1) s (.call (.member o (.text method)) args) v := by
  have hkey : ((interp put depth).memberKey (.text method)).run s = (.ok method, s) := rfl
  exact (run_bind_of_ok hkey).trans ((run_bind_of_ok ho.run_namespaceOf?).trans
    ((run_bind_of_ok ho).trans ((run_bind_of_ok (run_evalItems hargs [])).trans
      (run_bind_of_ok hreply))))

/-- A call of a method of a text that calls no function. -/
theorem textCall (ho : Yields depth s o (.string t))
    (hargs : List.Forall₂ (Yields depth s) args values)
    (hmethod :
      (interp put depth).stringMethod t method values = ofOutcome (textMethod t method values))
    (hv : textMethod t method values = .ok v) :
    Yields (depth + 1) s (.call (.member o (.text method)) args) v := by
  refine ho.methodCall hargs ?_
  change (Reply.plain <$> (interp put depth).stringMethod t method values).run s = _
  rw [hmethod, hv]
  rfl

/-- The call of the method that joins the items of an array. -/
theorem joinCall (ho : Yields depth s o (.array items))
    (hargs : List.Forall₂ (Yields depth s) args values) (hv : joinItems items values = .ok v) :
    Yields (depth + 1) s (.call (.member o (.text "join")) args) v := by
  refine ho.methodCall hargs ?_
  change (ofOutcome ((joinItems items values).map Reply.plain)).run s = _
  rw [hv]
  rfl

end Yields

end Scrape.Script
