import Mathlib.Control.Monad.Basic
import Scrape.Proofs.Script.Run
import Scrape.Script.Evaluate

/-!
# Script — Finalizer

A statement that takes care of failures can have a last block, which should be executed in any case
(`inAnyCase`), and by which the statement should end if the block does not end normally.  The
failures of the body and those of the handler wait for the last block, but those of binding the
message to the parameter of the handler do not: they end the statement at once (`BindingFails`).  Of
how the last block ends, a value and a failure count, but the end of a loop or of its round does
not.

Main statement (`endsByLast_iff`): these two are all that is missed.
-/

namespace Scrape.Script

open Run

/-- Does one thing after another in any case, and ends as this one does unless it ends normally. -/
def inAnyCase (first last : Run Flow) : Run Flow := do
  let o ← observe first
  match ← last with
  | .normal => liftExcept o
  | flow    => return flow

/-- How two blocks end of which the second ends the first in any case. -/
def endOf (o : Except Failure Flow) : Except Failure Flow → Except Failure Flow
  | .ok .normal => o
  | f           => f

/-- How two blocks end of which the second counts if it gives a value or fails. -/
def keptEnd (o : Except Failure Flow) : Except Failure Flow → Except Failure Flow
  | .ok .normal => o
  | .ok .leave  => o
  | .ok .again  => o
  | f           => f

namespace Interp

/-- The failure of a body is not bound to the parameter of the handler, since binding it fails. -/
def BindingFails (self : Interp) (body : List Stmt) (param : Option Binding)
    (handler : Option (List Stmt)) (s : State) : Prop :=
  handler.isSome = true ∧ ∃ (f : Cause) (t : State) (e : Failure) (u : State),
    (self.execBlock body).run s = (.error f.val, t) ∧
      (self.bindMessage param f).run t = (.error e, u)

/-- The statement does what it does without its last block, and after that the last block in any
case. -/
def EndsByLast (self : Interp) (body : List Stmt) (param : Option Binding)
    (handler : Option (List Stmt)) (last : List Stmt) (s : State) : Prop :=
  (self.execBody (.attempt body param handler (some last))).run s =
    (do tick; inAnyCase (self.execAttempt body param handler none) (self.execBlock last)).run s

end Interp

variable {self : Interp} {body last : List Stmt} {param : Option Binding}
  {handler : Option (List Stmt)} {s t u : State} {o f : Except Failure Flow}

/-! ### How two blocks end -/

theorem run_liftExcept {α : Type} (o : Except Failure α) (s : State) :
    (liftExcept o : Run α).run s = (o, s) := by
  cases o <;> rfl

theorem run_inAnyCase {first last : Run Flow} (hfirst : first.run s = (o, t))
    (hlast : last.run t = (f, u)) : (inAnyCase first last).run s = (endOf o f, u) := by
  rw [inAnyCase, run_bind_of_ok (run_observe hfirst)]
  cases f with
  | error e => exact run_bind_of_error hlast _
  | ok flow =>
    rw [run_bind_of_ok hlast]
    cases flow with
    | normal => exact run_liftExcept o u
    | _ => rfl

/-- What counts of the last block is all there is, unless this ends a loop or its round and the
other block has not ended so. -/
theorem keptEnd_eq_endOf_iff :
    keptEnd o f = endOf o f ↔ (f = .ok .leave ∨ f = .ok .again → o = f) := by
  cases f with
  | error e => simp [keptEnd, endOf]
  | ok flow =>
    cases flow with
    | leave => exact ⟨fun h _ => h, fun h => h (.inl rfl)⟩
    | again => exact ⟨fun h _ => h, fun h => h (.inr rfl)⟩
    | normal => simp [keptEnd, endOf]
    | give v => simp [keptEnd, endOf]

/-- Of a last block, a value and a failure count. -/
theorem run_finish_execLast (hlast : (self.execBlock last).run t = (f, u)) :
    (finish (self.execLast (some last)) o).run t = (keptEnd o f, u) := by
  cases f with
  | error e => exact run_bind_of_error (run_bind_of_error hlast _) _
  | ok flow =>
    cases flow with
    | give v =>
      have hcounts : (self.execLast (some last)).run t = (.ok (some (.give v)), u) :=
        run_bind_of_ok hlast
      exact run_bind_of_ok hcounts
    | _ =>
      have hnothing : (self.execLast (some last)).run t = (.ok none, u) := run_bind_of_ok hlast
      exact (run_bind_of_ok hnothing).trans (run_liftExcept o u)

/-! ### Handled failures -/

/-- Handling the failures of a body ends well, unless binding one of them fails. -/
theorem handled_cases (self : Interp) (body : List Stmt) (param : Option Binding)
    (handler : Option (List Stmt)) (s : State) :
    (¬ self.BindingFails body param handler s ∧ ∃ o t,
      (handled (self.execBlock body) (self.execHandler param handler).1
        (self.execHandler param handler).2).run s = (.ok o, t)) ∨
    (self.BindingFails body param handler s ∧ ∃ e t,
      (handled (self.execBlock body) (self.execHandler param handler).1
        (self.execHandler param handler).2).run s = (.error e, t)) := by
  obtain ⟨o, t, hbody⟩ : ∃ o t, (self.execBlock body).run s = (o, t) := ⟨_, _, rfl⟩
  -- which failure of the body is not bound, if any
  have of_fails (h : self.BindingFails body param handler s) : ∃ f : Cause, o = .error f.val := by
    obtain ⟨-, f, _, _, _, hf, -⟩ := h
    exact ⟨f, congrArg Prod.fst (hbody.symm.trans hf)⟩
  cases o with
  | ok flow =>
    refine .inl ⟨fun h => ?_, _, _, run_handled_of_ok hbody _ _⟩
    obtain ⟨f, hf⟩ := of_fails h
    cases hf
  | error e =>
    by_cases hcatch : e.isCatchable = true
    · rw [run_handled_of_isCatchable hbody hcatch]
      cases handler with
      | none =>
        exact .inl ⟨fun h => Bool.false_ne_true h.1, _, _, rfl⟩
      | some handler =>
        obtain ⟨b, u, hbind⟩ : ∃ b u, (self.bindMessage param ⟨e, hcatch⟩).run t = (b, u) :=
          ⟨_, _, rfl⟩
        cases b with
        | ok _ =>
          refine .inl ⟨?_, _, _, (run_bind_of_ok hbind).trans (run_observe rfl)⟩
          rintro ⟨-, f, t', e', u', hf, hbind'⟩
          cases hbody.symm.trans hf
          cases hbind.symm.trans hbind'
        | error e' =>
          exact .inr ⟨⟨rfl, ⟨e, hcatch⟩, t, e', u, hbody, hbind⟩, _, _, run_bind_of_error hbind _⟩
    · refine .inl ⟨fun h => ?_, _, _, run_handled_of_not_isCatchable hbody hcatch _ _⟩
      obtain ⟨f, hf⟩ := of_fails h
      cases hf
      exact hcatch f.property

/-- What the statement does with its last block, if it does `o` without: nothing more where binding
a failure has failed, and else the last block once. -/
theorem run_execAttempt_some (hfirst : (self.execAttempt body param handler none).run s = (o, t))
    (hlast : (self.execBlock last).run t = (f, u)) :
    (self.BindingFails body param handler s →
      (self.execAttempt body param handler (some last)).run s = (o, t)) ∧
    (¬ self.BindingFails body param handler s →
      (self.execAttempt body param handler (some last)).run s = (keptEnd o f, u)) := by
  rcases handled_cases self body param handler s with ⟨hbinds, o', t', hrun⟩ | ⟨hfails, e, t', hrun⟩
  · refine ⟨fun h => absurd h hbinds, fun _ => ?_⟩
    have hwithout := hfirst.symm.trans
      ((run_bind_of_ok hrun).trans ((run_bind_of_ok rfl).trans (run_liftExcept o' t')))
    cases hwithout
    exact (run_bind_of_ok hrun).trans (run_finish_execLast hlast)
  · refine ⟨fun _ => ?_, fun h => absurd hfails h⟩
    cases hfirst.symm.trans (run_bind_of_error hrun _)
    exact run_bind_of_error hrun _

/-- **What is done in any case.**  Let a statement with a last block end in some way without it, and
the last block in some way from there.  If a failure of the body cannot be bound, the statement ends
without its last block; else this is executed once, and counts if it gives a value or fails.  So the
statement ends by its last block as it should exactly when, in the first case, the last block would
do nothing, and in the other one it does not end a loop or its round, unless the rest has ended in
the same way. -/
theorem endsByLast_iff (hsteps : s.steps < s.limit)
    (hfirst : (self.execAttempt body param handler none).run (stepped s) = (o, t))
    (hlast : (self.execBlock last).run t = (f, u)) :
    (self.BindingFails body param handler (stepped s) →
      (self.execBody (.attempt body param handler (some last))).run s = (o, t) ∧
      (self.EndsByLast body param handler last s ↔ endOf o f = o ∧ u = t)) ∧
    (¬ self.BindingFails body param handler (stepped s) →
      (self.execBody (.attempt body param handler (some last))).run s = (keptEnd o f, u) ∧
      (self.EndsByLast body param handler last s ↔
        (f = .ok .leave ∨ f = .ok .again → o = f))) := by
  have hshould : (tick >>= fun _ => inAnyCase (self.execAttempt body param handler none)
      (self.execBlock last)).run s = (endOf o f, u) :=
    (run_bind_of_ok (run_tick_of_lt hsteps)).trans (run_inAnyCase hfirst hlast)
  obtain ⟨hfails, hbinds⟩ := run_execAttempt_some hfirst hlast
  have done {o' : Except Failure Flow} {t' : State}
      (h : (self.execAttempt body param handler (some last)).run (stepped s) = (o', t')) :
      (self.execBody (.attempt body param handler (some last))).run s = (o', t') :=
    (run_bind_of_ok (run_tick_of_lt hsteps)).trans h
  refine ⟨fun h => ⟨done (hfails h), ?_⟩, fun h => ⟨done (hbinds h), ?_⟩⟩
  · rw [Interp.EndsByLast, hshould, done (hfails h), Prod.mk.injEq, eq_comm, eq_comm (a := t)]
  · rw [Interp.EndsByLast, hshould, done (hbinds h), Prod.mk.injEq, keptEnd_eq_endOf_iff,
      and_iff_left rfl]

/-! ### Last blocks that are executed, and that are missed -/

/-- A block that notes that it was executed. -/
def notedBlock : List Stmt := [.expr (.assign .plain (.name "result") (.string "ran"))]

/-- The state before a run on a value. -/
def beforeNote : State := .initial (.string "no") none Session.empty 100

/-- Binding the message to a name does not fail. -/
theorem not_bindingFails_name (depth : Nat) (name : String) (body : List Stmt)
    (handler : Option (List Stmt)) (s : State) :
    ¬ (interp put (depth + 1)).BindingFails body (some (.name name)) handler s := by
  rintro ⟨-, f, t, e, u, -, hbind⟩
  cases hbind

theorem endsByLast_notedBlock :
    beforeNote.steps < beforeNote.limit ∧
    (interp put 8).EndsByLast [.throw (.string "x")] (some (.name "e")) (some []) notedBlock
      beforeNote := by
  have hsteps : beforeNote.steps < beforeNote.limit := by decide
  let handledState : State := (stepped (stepped beforeNote)).declare "e" (.string "x")
  have hfirst : ((interp put 8).execAttempt [.throw (.string "x")] (some (.name "e")) (some [])
      none).run (stepped beforeNote) = (.ok .normal, handledState) := rfl
  have hlast : ((interp put 8).execBlock notedBlock).run handledState =
      (.ok .normal, (stepped handledState).setVar "result" (.string "ran")) := rfl
  have hiff := (endsByLast_iff hsteps hfirst hlast).2 (not_bindingFails_name 7 "e" _ _ _)
  exact ⟨hsteps, hiff.2.mpr fun h => h.elim (by intro heq; cases heq) (by intro heq; cases heq)⟩

/-- A pattern with a default that names no variable. -/
def unboundPattern : Binding := .object [.shorthand "a" (some (.name "missing"))]

/-- A last block, and a failure that cannot be bound. -/
def unboundScript : List Char :=
  "var m = 'no'; try \x7b try \x7b throw 'x'; \x7d ".toList ++
    "catch (\x7ba = missing\x7d) \x7b\x7d finally \x7b m = 'ran'; \x7d ".toList ++
    "\x7d catch (e) \x7b\x7d m".toList

/-- A loop whose round fails, and is left by a last block. -/
def leftLoopScript : List Char :=
  "var n = 0; while (n < 1) \x7b n++; ".toList ++
    "try \x7b throw 'a'; \x7d finally \x7b break; \x7d \x7d n".toList

/-- A loop whose round gives a value, and is left by a last block. -/
def leftGivingScript : List Char :=
  "function f() \x7b for (;;) ".toList ++
    "\x7b try \x7b return 1; \x7d finally \x7b break; \x7d \x7d return 2; \x7d f()".toList

theorem lastBlocks_missed :
    ¬ (interp put 8).EndsByLast [.throw (.string "x")] (some unboundPattern) (some []) notedBlock
      beforeNote ∧
    ¬ (interp put 8).EndsByLast [.throw (.string "a")] none none [.leave] beforeNote ∧
    (run unboundScript .undefined none Session.empty 100).1.map Value.output = .ok "no" ∧
    (run leftLoopScript .undefined none Session.empty 100).1.map Value.output =
      .error (.run (.fault (.thrown "a"))) ∧
    (run leftGivingScript .undefined none Session.empty 100).1.map Value.output = .ok "1" := by
  refine ⟨fun h => ?_, fun h => ?_, by decide +kernel⟩
  · have hnoted := congrArg (fun r => (r.2.lookup? "result").map Value.output) h
    exact absurd hnoted (by decide)
  · have hfailed := congrArg (fun r => r.1.isOk) h
    exact absurd hfailed (by decide)

end Scrape.Script
