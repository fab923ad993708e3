import Scrape.Proofs.Script.Member
import Scrape.Proofs.Script.Scope

/-!
# Script — Receiver

Methods that add items to an array.  The array that such a method is called on is taken out of its
variable before the arguments are evaluated, and put back with the items added after that; so what
the arguments do to the variable is lost (`run_eval_addCall`).

Main statement (`add_keeps_iff`): the items are added to what the variable holds after the
arguments, as they should be, exactly when this is what it has held before.
-/

namespace Scrape.Script

open Run

/-- Where a method adds items to an array. -/
inductive Place
  | atEnd
  | atStart

/-- The name of the method. -/
def Place.method : Place → String
  | .atEnd   => "push"
  | .atStart => "unshift"

/-- Items with others added. -/
def Place.add (place : Place) (items values : List Value) : List Value :=
  match place with
  | .atEnd   => items ++ values
  | .atStart => values ++ items

/-- The call of the method on a variable. -/
def addCall (place : Place) (a : String) (args : List Expr) : Expr :=
  .call (.member (.name a) (.text place.method)) args

variable {place : Place} {a : String} {items now values : List Value} {args : List Expr}
  {depth : Nat} {s t : State}

theorem Place.add_inj : place.add now values = place.add items values ↔ now = items := by
  cases place with
  | atEnd => exact List.append_left_inj values
  | atStart => exact List.append_right_inj values

theorem ofOutcome_map_appended (f : List Value → Reply) (items more : List Value) :
    (ofOutcome ((appended items more).map f) : Run Reply) =
      if maxItems < (items ++ more).length then fault .arrayLength else pure (f (items ++ more)) := by
  rw [List.length_append]
  unfold appended
  split <;> rfl

/-- The method does not see the state, and fails if there would be too many items. -/
theorem arrayMethod_place (self : Interp) (place : Place) (items values : List Value) :
    self.arrayMethod items place.method values =
      if maxItems < items.length + values.length then fault .arrayLength
      else pure (.changing (.ofNat (items.length + values.length)) (place.add items values)) := by
  cases place with
  | atEnd =>
    rw [← List.length_append]
    exact ofOutcome_map_appended _ items values
  | atStart =>
    rw [Nat.add_comm, ← List.length_append]
    exact ofOutcome_map_appended _ values items

/-- A run of arguments keeps the scopes apart from what they hold, so that there is one at least
where a variable has been found. -/
theorem scopes_ne_nil_evalItems {v : Value} (hs : s.lookup? a = some v)
    (hargs : ((interp put depth).evalItems [] args).run s = (.ok values, t)) : t.scopes ≠ [] := by
  have hne := scopes_ne_nil_of_lookup? hs
  have hself : StateAlike .same 0 s s :=
    ⟨.base hne hne fun _ _ h => rel_eq_iff.mpr (h ▸ rfl), rfl, rfl, rfl, rfl, rfl⟩
  have halike := (((sameShown.alike_interp sameShown_put depth).args args).1 hself).2
  rw [hargs] at halike
  exact halike.scopes.ne_nil.1

/-- A call of a method on a variable that holds an array: the receiver is taken out before the
arguments are evaluated, and what the method has changed it to is put back after that. -/
theorem run_eval_arrayCall {method : String} (hs : s.lookup? a = some (.array items))
    (hargs : ((interp put (depth + 1)).evalItems [] args).run s = (.ok values, t)) :
    ((interp put (depth + 2)).eval (.call (.member (.name a) (.text method)) args)).run s =
      (do
        let reply ← (interp put (depth + 1)).arrayMethod items method values
        match reply.changed? with
        | some changed => (interp put (depth + 1)).putBack (.name a) changed
        | none         => pure ()
        return reply.value).run t := by
  have hspace : (Interp.namespaceOf? (.name a)).run s = (.ok none, s) := by
    change (Except.ok (if isNamespace a && (s.lookup? a).isNone then some a else none), s) = _
    rw [hs, Option.isNone_some, Bool.and_false]
    rfl
  have hmethod : ((interp put (depth + 1)).memberKey (.text method)).run s = (.ok method, s) := rfl
  have hreceiver : ((interp put (depth + 1)).eval (.name a)).run s = (.ok (.array items), s) :=
    run_valueOf hs
  refine (run_bind_of_ok hmethod).trans ?_
  refine (run_bind_of_ok hspace).trans ?_
  refine (run_bind_of_ok hreceiver).trans ?_
  exact run_bind_of_ok hargs

/-- A call of the method on a variable evaluates the arguments, and adds their values to what the
variable has held before. -/
theorem run_eval_addCall (hs : s.lookup? a = some (.array items))
    (hargs : ((interp put (depth + 1)).evalItems [] args).run s = (.ok values, t)) :
    ((interp put (depth + 2)).eval (addCall place a args)).run s =
      if maxItems < items.length + values.length then (.error (.fault .arrayLength), t)
      else (.ok (.ofNat (items.length + values.length)),
        t.setVar a (.array (place.add items values))) := by
  rw [addCall, run_eval_arrayCall hs hargs, arrayMethod_place]
  split
  · rfl
  · rfl

/-- **Adding items to an array while its arguments change it.**  If the arguments of a call of
`push` or `unshift` on a variable that holds an array are evaluated, the call fails where there
would be too many items; else it gives the new length, and the variable holds what it has held
before the arguments with their values added, and all other variables hold what they hold after the
arguments.  So the values are added to what the variable holds after the arguments exactly when it
holds then what it has held before. -/
theorem add_keeps_iff (hs : s.lookup? a = some (.array items))
    (hargs : ((interp put (depth + 1)).evalItems [] args).run s = (.ok values, t)) :
    (maxItems < items.length + values.length →
      ((interp put (depth + 2)).eval (addCall place a args)).run s =
        (.error (.fault .arrayLength), t)) ∧
    (items.length + values.length ≤ maxItems →
      ∃ u, ((interp put (depth + 2)).eval (addCall place a args)).run s =
          (.ok (.ofNat (items.length + values.length)), u) ∧
        u.lookup? a = some (.array (place.add items values)) ∧
        (∀ x ≠ a, u.lookup? x = t.lookup? x) ∧
        ((∃ now, t.lookup? a = some (.array now) ∧
            u.lookup? a = some (.array (place.add now values))) ↔
          t.lookup? a = some (.array items))) := by
  rw [run_eval_addCall hs hargs]
  refine ⟨fun hlong => if_pos hlong, fun hshort => ?_⟩
  let u := t.setVar a (.array (place.add items values))
  have hne := scopes_ne_nil_evalItems hs hargs
  have hadded : u.lookup? a = some (.array (place.add items values)) :=
    lookup?_setVar_self hne a _
  refine ⟨u, if_neg (Nat.not_lt.mpr hshort), hadded,
    fun x hx => (lookup?_setVar hne a _ x).trans (if_neg hx.symm), fun h => ?_,
    fun h => ⟨items, h, hadded⟩⟩
  obtain ⟨now, hnow, hkept⟩ := h
  have heq := Value.array.inj (Option.some.inj (hkept.symm.trans hadded))
  rw [hnow, Place.add_inj.mp heq]

/-! ### Items that are kept, and one that is lost -/

/-- The state before a run on an array. -/
def beforeAdding : State := .initial (.array [.string "1"]) none Session.empty 100

theorem add_keeps_literal :
    beforeAdding.lookup? "result" = some (.array [.string "1"]) ∧
    ∃ u, ((interp put 3).eval (addCall .atEnd "result" [.string "2"])).run beforeAdding =
        (.ok (.ofNat 2), u) ∧
      ∃ now, beforeAdding.lookup? "result" = some (.array now) ∧
        u.lookup? "result" = some (.array (now ++ [.string "2"])) := by
  have hs : beforeAdding.lookup? "result" = some (.array [.string "1"]) := rfl
  have hargs : ((interp put 2).evalItems [] [.string "2"]).run beforeAdding =
      (.ok [.string "2"], beforeAdding) := rfl
  obtain ⟨u, hrun, -, -, hkeeps⟩ := (add_keeps_iff hs hargs).2 (by decide)
  exact ⟨hs, u, hrun, hkeeps.mpr hs⟩

/-- A script that calls a method on an array with an argument that adds another item itself. -/
def losingScript (place : Place) : List Char :=
  "var a = [1]; function f() \x7b a.push(2); return 3; \x7d a.".toList ++ place.method.toList ++
    "(f()); a.join(',')".toList

/-- The same script with nothing but the argument. -/
def argumentScript : List Char :=
  "var a = [1]; function f() \x7b a.push(2); return 3; \x7d f(); a.join(',')".toList

theorem addedItem_lost :
    (run argumentScript .undefined none Session.empty 100).1.map Value.output = .ok "1,2" ∧
    (run (losingScript .atEnd) .undefined none Session.empty 100).1.map Value.output =
      .ok "1,3" ∧
    (run (losingScript .atStart) .undefined none Session.empty 100).1.map Value.output =
      .ok "3,1" := by
  decide +kernel

end Scrape.Script
