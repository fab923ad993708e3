import Scrape.Proofs.Script.Finalizer
import Scrape.Proofs.Script.Watched

/-!
# Script — Stack

The scopes of a run are a stack: there is one for the script, and one more for each call that is
under way.  Whatever is evaluated or executed, and in whatever way it ends, leaves the stack as high
as it was (`StackKept`).  The scopes that it leaves are those that it began in: each still holds the
variables it has held, and only the innermost and the outermost can hold more (`Kept`); and a
variable that is held by a scope keeps what is done in or above this scope from the variables of its
name below (`Kept.below`).  So a call leaves no variable of its own behind (`Passed`).

A machine that is guarded looks at the state before and after each part of a script, and ends the
run for good if something does not hold of it.

Main statement (`scopes_match_calls`): a guard that there are as many scopes as calls under way, and
one more, is never heard of.
-/

namespace Scrape.Script

open Run

/-! ### Variables of scopes -/

/-- The variable of a name in one of some scopes, which are counted from the innermost. -/
def valueAt (name : String) (i : Nat) (scopes : List Scope) : Option Value :=
  scopes[i]?.bind (Keyed.get? name)

/-- A scope, counted from the innermost, holds a variable of the name. -/
def HeldAt (name : String) (i : Nat) (scopes : List Scope) : Prop :=
  (valueAt name i scopes).isSome = true

section

variable {name other : String} {v : Value} {i k : Nat} {scope : Scope} {scopes scopes' : List Scope}

@[simp] theorem valueAt_cons_succ :
    valueAt name (i + 1) (scope :: scopes) = valueAt name i scopes := rfl

theorem valueAt_tail : valueAt name i scopes.tail = valueAt name (i + 1) scopes := by
  rw [valueAt, valueAt, List.getElem?_tail]

theorem HeldAt.lt (h : HeldAt name i scopes) : i < scopes.length := by
  obtain ⟨v, hv⟩ := Option.isSome_iff_exists.mp h
  obtain ⟨scope, hscope, -⟩ := Option.bind_eq_some_iff.mp hv
  exact (List.getElem?_eq_some_iff.mp hscope).1

/-- Putting a variable into one of the scopes. -/
theorem valueAt_modify (hk : k < scopes.length) :
    valueAt other i (scopes.modify k (Keyed.put name v)) =
      if i = k ∧ name = other then some v else valueAt other i scopes := by
  rw [valueAt, valueAt, List.getElem?_modify]
  by_cases hik : i = k
  · subst hik
    rw [List.getElem?_eq_getElem hk]
    simp [Keyed.get?_put]
  · rw [if_neg fun h : i = k ∧ name = other => hik h.1]
    simp only [if_neg (Ne.symm hik), Option.map_eq_map, Option.map_id']

/-- A variable is set in the innermost scope that holds it, or else in the outermost one. -/
theorem exists_setIn_eq (name : String) (v : Value) (hne : scopes ≠ []) :
    ∃ k < scopes.length, State.setIn name v scopes = scopes.modify k (Keyed.put name v) ∧
      (∀ i < k, ¬ HeldAt name i scopes) ∧ (HeldAt name k scopes ∨ k + 1 = scopes.length) := by
  fun_induction State.setIn name v scopes with
  | case1 => exact absurd rfl hne
  | case2 outermost => exact ⟨0, by simp, rfl, by simp, .inr rfl⟩
  | case3 scope r _ hhas => exact ⟨0, by simp, rfl, by simp, .inl hhas⟩
  | case4 scope r hr hhas ih =>
    obtain ⟨k, hk, heq, habove, hheld⟩ := ih fun h => hr h
    refine ⟨k + 1, Nat.succ_lt_succ hk, by rw [heq, List.modify_succ_cons], fun i hi => ?_,
      hheld.imp id (congrArg (· + 1))⟩
    cases i with
    | zero => exact hhas
    | succ i => exact habove i (Nat.lt_of_succ_lt_succ hi)

end

/-! ### Scopes that are kept -/

/-- The second scopes are the first ones after some of what is done in a run: each holds the
variables that it has held before, only the innermost and the outermost can hold more, and below a
scope that holds a variable those of its name have not been touched. -/
structure Kept (scopes scopes' : List Scope) : Prop where
  length_eq : scopes'.length = scopes.length
  held {name : String} {i : Nat} : HeldAt name i scopes → HeldAt name i scopes'
  fresh {name : String} {i : Nat} : HeldAt name i scopes' → HeldAt name i scopes ∨ i = 0 ∨
    i + 1 = scopes.length
  below {name : String} {i j : Nat} : HeldAt name i scopes → i < j →
    valueAt name j scopes' = valueAt name j scopes

/-- The second scopes are the first ones after a call that has been made in them: only the outermost
can hold more. -/
structure Passed (scopes scopes' : List Scope) : Prop extends Kept scopes scopes' where
  outermost {name : String} {i : Nat} : HeldAt name i scopes' → HeldAt name i scopes ∨
    i + 1 = scopes.length

namespace Kept

variable {a b c : List Scope}

theorem refl (a : List Scope) : Kept a a := ⟨rfl, id, .inl, fun _ _ => rfl⟩

theorem trans (h : Kept a b) (h' : Kept b c) : Kept a c where
  length_eq := h'.length_eq.trans h.length_eq
  held hi := h'.held (h.held hi)
  fresh hi := (h'.fresh hi).elim h.fresh fun hends => .inr (h.length_eq ▸ hends)
  below hi hj := (h'.below (h.held hi) hj).trans (h.below hi hj)

/-- A variable that is put into a scope above which none holds it. -/
theorem modify {k : Nat} (hk : k < a.length) {name : String} (v : Value)
    (habove : ∀ i < k, ¬ HeldAt name i a) (hheld : HeldAt name k a ∨ k = 0 ∨ k + 1 = a.length) :
    Kept a (a.modify k (Keyed.put name v)) where
  length_eq := List.length_modify ..
  held {other i} hi := by
    rw [HeldAt, valueAt_modify hk]
    split
    · rfl
    · exact hi
  fresh {other i} hi := by
    rw [HeldAt, valueAt_modify hk] at hi
    split at hi
    · rename_i heq
      obtain ⟨rfl, rfl⟩ := heq
      exact hheld
    · exact .inl hi
  below {other i j} hi hij := by
    rw [valueAt_modify hk, if_neg]
    rintro ⟨rfl, rfl⟩
    exact habove i hij hi

theorem setIn (name : String) (v : Value) (a : List Scope) : Kept a (State.setIn name v a) := by
  rcases eq_or_ne a [] with rfl | hne
  · exact refl []
  · obtain ⟨k, hk, heq, habove, hheld⟩ := exists_setIn_eq name v hne
    rw [heq]
    exact modify hk v habove (hheld.imp id .inr)

/-- What a call has done in a scope of its own, which it leaves, has passed. -/
theorem passed_tail (h : Kept ([] :: a) b) : Passed a b.tail := by
  have outermost {name : String} {i : Nat} (hi : HeldAt name i b.tail) :
      HeldAt name i a ∨ i + 1 = a.length := by
    rw [HeldAt, valueAt_tail] at hi
    rcases h.fresh hi with hheld | hzero | hlast
    · exact .inl hheld
    · exact absurd hzero (Nat.succ_ne_zero i)
    · exact .inr (Nat.succ.inj hlast)
  refine ⟨⟨?_, fun {name i} hi => ?_, fun hi => (outermost hi).imp id .inr, ?_⟩, outermost⟩
  · rw [List.length_tail, h.length_eq]
    rfl
  · rw [HeldAt, valueAt_tail]
    exact h.held (i := i + 1) hi
  · intro name i j hi hij
    rw [valueAt_tail, h.below (i := i + 1) hi (Nat.succ_lt_succ hij), valueAt_cons_succ]

end Kept

/-! ### States -/

/-- There is a scope for the script, and one more for each call under way, of which there are not
too many. -/
def State.Nested (s : State) : Prop := s.scopes.length = s.depth + 1 ∧ s.depth ≤ maxCallDepth

instance (s : State) : Decidable s.Nested := inferInstanceAs (Decidable (_ ∧ _))

/-- The second state has as many calls under way as the first one, and its scopes are those of the
first one after some of what is done in a run. -/
structure StackKept (s t : State) : Prop where
  depth_eq : t.depth = s.depth
  scopes : Kept s.scopes t.scopes

namespace StackKept

variable {s t u : State}

theorem refl (s : State) : StackKept s s := ⟨rfl, .refl _⟩

theorem trans (h : StackKept s t) (h' : StackKept t u) : StackKept s u :=
  ⟨h'.depth_eq.trans h.depth_eq, h.scopes.trans h'.scopes⟩

theorem nested (h : StackKept s t) (hs : s.Nested) : t.Nested := by
  rw [State.Nested, h.depth_eq, h.scopes.length_eq]
  exact hs

theorem setVar (name : String) (v : Value) (s : State) : StackKept s (s.setVar name v) :=
  ⟨rfl, .setIn name v s.scopes⟩

theorem declare (name : String) (v : Value) (s : State) : StackKept s (s.declare name v) := by
  obtain ⟨_, scopes, _, _, _, _⟩ := s
  cases scopes with
  | nil => exact refl _
  | cons inner r =>
    exact ⟨rfl, .modify (Nat.succ_pos r.length) v (fun _ hi => absurd hi (Nat.not_lt_zero _))
      (.inr (.inl rfl))⟩

theorem leave (h : StackKept s.enter t) : StackKept s t.leave :=
  ⟨by rw [State.leave, h.depth_eq]; rfl, h.scopes.passed_tail.toKept⟩

end StackKept

theorem State.Nested.enter {s : State} (h : s.Nested) (hlt : s.depth < maxCallDepth) :
    s.enter.Nested :=
  ⟨congrArg (· + 1) h.1, hlt⟩

/-! ### Machines that are guarded -/

variable {α β : Type}

/-- Goes on if something holds of the state, and ends the run if not. -/
def Run.check (holds : State → Bool) : Run Unit := do insist (holds (← get))

/-- Runs something with a look at the state before it and after it, in whatever way it ends. -/
def Run.checking (holds : State → Bool) (m : Run α) : Run α := do
  check holds
  let o ← observe m
  check holds
  liftExcept o

/-- Runs something that takes a step first with a look at the state before and after it.  If it is
refused the step, it has not begun. -/
def Run.checkingStep (holds : State → Bool) (m : Run α) : Run α := do
  if (← get).stepsLeft = 0 then m else checking holds m

/-- The meaning of parts that nest at most `n` deep, guarded: there is a look at the state before
and after each of them. -/
def guarded (holds : State → Bool) : Nat → Interp
  | 0     => interp (fun key v => checking holds (put key v)) 0
  | n + 1 =>
    { eval := fun e => checking holds ((guarded holds n).evalBody e)
      exec := fun s => checkingStep holds ((guarded holds n).execBody s)
      bind := fun declare b v => checking holds ((guarded holds n).bindBody declare b v)
      assign := fun e v => checking holds ((guarded holds n).assignBody e v)
      call := fun params body args => checking holds ((guarded holds n).callBody params body args)
      put := fun key v => checking holds (put key v) }

/-- Runs a script as usual, but guarded. -/
def runGuarded (holds : State → Bool) (source : List Char) (result : Value)
    (baseUrl? : Option String) (session : Session) (limit : Nat) :
    Except EvalError Value × State :=
  let start := State.initial result baseUrl? session limit
  match parse source with
  | .error e => (.error (.parse e), start)
  | .ok body =>
    let machine := guarded holds (maxDepth source.length)
    let (outcome, state) := (machine.run body).run start
    (outcome.mapError .run, state)

/-! ### Runs that keep the stack -/

/-- The first run keeps the stack, and the second one does the same where there are as many scopes
as there should be. -/
def Balanced (m m' : Run α) : Prop :=
  ∀ ⦃s o t⦄, m.run s = (o, t) → StackKept s t ∧ (s.Nested → m'.run s = (o, t))

namespace Balanced

theorem bind {m m' : Run α} {f f' : α → Run β} (hm : Balanced m m')
    (hf : ∀ a, Given m a → Balanced (f a) (f' a)) : Balanced (m >>= f) (m' >>= f') := by
  intro s o u hrun
  cases hmid : m.run s with
  | mk mid t =>
    obtain ⟨hkept, hsame⟩ := hm hmid
    cases mid with
    | error e =>
      rw [run_bind_of_error hmid] at hrun
      obtain ⟨rfl, rfl⟩ := Prod.mk.inj hrun
      exact ⟨hkept, fun hs => run_bind_of_error (hsame hs) f'⟩
    | ok a =>
      rw [run_bind_of_ok hmid] at hrun
      obtain ⟨hkept', hsame'⟩ := hf a ⟨s, t, hmid⟩ hrun
      exact ⟨hkept.trans hkept', fun hs =>
        (run_bind_of_ok (hsame hs)).trans (hsame' (hkept.nested hs))⟩

/-- A run with itself, if it keeps the stack. -/
theorem refl {m : Run α} (h : ∀ s, StackKept s (m.run s).2) : Balanced m m := by
  intro s o t hrun
  have hkept := h s
  rw [hrun] at hkept
  exact ⟨hkept, fun _ => hrun⟩

theorem pure (a : α) : Balanced (Pure.pure a) (Pure.pure a) := refl fun s => .refl s

theorem throw (e : Failure) : Balanced (throw e : Run α) (MonadExcept.throw e) :=
  refl fun s => .refl s

theorem tick : Balanced Run.tick Run.tick := by
  refine refl fun s => ?_
  rcases Nat.lt_or_ge s.steps s.limit with hlt | hge
  · rw [run_tick_of_lt hlt]
    exact ⟨rfl, .refl _⟩
  · rw [run_tick_of_le hge]
    exact ⟨rfl, .refl _⟩

theorem setVar (declare : Bool) (name : String) (v : Value) :
    Balanced (Run.setVar declare name v) (Run.setVar declare name v) := by
  refine refl fun s => ?_
  cases declare with
  | false => exact .setVar name v s
  | true => exact .declare name v s

theorem inScope {m m' : Run α} (h : Balanced m m') :
    Balanced (Run.inScope m) (Run.inScope m') := by
  intro s o u hrun
  rcases Nat.lt_or_ge s.depth maxCallDepth with hlt | hge
  · cases hbody : m.run s.enter with
    | mk o' t =>
      rw [run_inScope_of_lt hlt hbody] at hrun
      obtain ⟨rfl, rfl⟩ := Prod.mk.inj hrun
      obtain ⟨hkept, hsame⟩ := h hbody
      exact ⟨hkept.leave, fun hs => run_inScope_of_lt hlt (hsame (hs.enter hlt))⟩
  · rw [run_inScope_of_le hge] at hrun
    obtain ⟨rfl, rfl⟩ := Prod.mk.inj hrun
    exact ⟨.refl s, fun _ => run_inScope_of_le hge m'⟩

/-- Balanced runs, one after the other. -/
def sequential : Congruence.Sequential where
  rel := Balanced
  pure := pure
  throw := throw
  tick := tick
  bind := bind

theorem repeatedly {round round' : Run (Option α)} (h : Balanced round round') :
    Balanced (Run.repeatedly round) (Run.repeatedly round') :=
  fun s _ _ hrun => sequential.go h (s.stepsLeft + 1) hrun

theorem observe {m m' : Run α} (h : Balanced m m') :
    Balanced (Run.observe m) (Run.observe m') := by
  intro s o t hrun
  cases hbody : m.run s with
  | mk result u =>
    rw [run_observe hbody] at hrun
    obtain ⟨rfl, rfl⟩ := Prod.mk.inj hrun
    obtain ⟨hkept, hsame⟩ := h hbody
    exact ⟨hkept, fun hs => run_observe (hsame hs)⟩

theorem handled {body body' : Run α} {prepare prepare' : Cause → Run Unit}
    {handler handler' : Cause → Run α} (hbody : Balanced body body')
    (hprepare : ∀ f, Balanced (prepare f) (prepare' f))
    (hhandler : ∀ f, Balanced (handler f) (handler' f)) :
    Balanced (Run.handled body prepare handler) (Run.handled body' prepare' handler') :=
  sequential.handled hbody.observe hprepare fun f => (hhandler f).observe

theorem finish {last last' : Run (Option α)} (h : Balanced last last') (o : Except Failure α) :
    Balanced (Run.finish last o) (Run.finish last' o) :=
  sequential.finish h o

/-- A look at the number of scopes is never heard of. -/
theorem checking {m m' : Run α} (h : Balanced m m') :
    Balanced m (Run.checking (fun s => decide s.Nested) m') := by
  intro s o t hrun
  obtain ⟨hkept, hsame⟩ := h hrun
  refine ⟨hkept, fun hs => ?_⟩
  have look {s : State} (hs : s.Nested) :
      (check fun s => decide s.Nested).run s = (.ok (), s) := by
    change (insist (decide s.Nested)).run s = _
    rw [decide_eq_true hs]
    rfl
  rw [Run.checking, run_bind_of_ok (look hs), run_bind_of_ok (run_observe (hsame hs)),
    run_bind_of_ok (look (hkept.nested hs)), run_liftExcept]

theorem checkingStep {m m' : Run α} (h : Balanced m m') :
    Balanced m (Run.checkingStep (fun s => decide s.Nested) m') := by
  intro s o t hrun
  refine ⟨(h hrun).1, fun hs => ?_⟩
  change (if s.stepsLeft = 0 then m' else Run.checking (fun s => decide s.Nested) m').run s = _
  split
  · exact (h hrun).2 hs
  · exact (h.checking hrun).2 hs

end Balanced

/-- What takes a step first still does so when there is a look at the state. -/
theorem exists_checkingStep_eq (holds : State → Bool) {m rest : Run α} (hm : m = (do tick; rest)) :
    ∃ rest', checkingStep holds m = (do tick; rest') := by
  -- the look is at the state before the step
  let back : Run Unit := modify fun s => { s with steps := s.steps - 1 }
  refine ⟨do back; checking holds m, ExceptT.ext (funext fun s => ?_)⟩
  change (if s.stepsLeft = 0 then m else checking holds m).run s = _
  rcases Nat.lt_or_ge s.steps s.limit with hlt | hge
  · have hleft : s.stepsLeft ≠ 0 := Nat.sub_ne_zero_of_lt hlt
    have hback : back.run (stepped s) = (.ok (), s) := rfl
    rw [if_neg hleft, run_bind_of_ok (run_tick_of_lt hlt), run_bind_of_ok hback]
  · have hleft : s.stepsLeft = 0 := Nat.sub_eq_zero_of_le hge
    rw [if_pos hleft, hm, run_bind_of_error (run_tick_of_le hge)]
    exact (run_bind_of_error (run_tick_of_le hge) _).symm

/-- Keeping the stack, as a relation that every way of putting runs together keeps. -/
def balanced : Congruence.Plain where
  rel := Balanced
  pure := Balanced.pure
  bind := Balanced.bind
  fail f := Balanced.throw f.val
  exhausted := @fun _ => Balanced.throw .exhausted
  tick := Balanced.tick
  lookup? _ := .refl fun s => .refl s
  setVar := Balanced.setVar
  newFunction _ _ := .refl fun _ => ⟨rfl, .refl _⟩
  sessionValue _ := .refl fun s => .refl s
  inCall h := Balanced.tick.bind fun _ _ => h.inScope
  repeatedly := Balanced.repeatedly
  attempt hbody hprepare hhandler hlast _ :=
    (hbody.handled hprepare hhandler).bind fun o _ => hlast.finish o

theorem balanced_put (key : String) (v : Value) : Balanced (put key v) (put key v) :=
  .refl fun _ => ⟨rfl, .refl _⟩

/-- **A guarded machine and the usual one** are alike, to any depth, if what is guarded is that
there are as many scopes as there should be. -/
theorem alike_guarded (depth : Nat) :
    balanced.congruence.Alike (interp put depth) (guarded (fun s => decide s.Nested) depth) := by
  let holds : State → Bool := fun s => decide s.Nested
  have hput (key : String) (v : Value) :
      balanced.congruence.does (put key v) (checking holds (put key v)) :=
    balanced.does_of_rel (balanced_put key v).checking
  induction depth with
  | zero => exact balanced.congruence.alike_zero hput
  | succ depth ih =>
    exact
      { eval := fun e => balanced.gives_of_rel (ih.evalBody e).1.checking
        exec := fun s => ⟨(ih.execBody s).1.checkingStep, (ih.execBody s).2⟩
        bind := fun declare b v => balanced.does_of_rel
          (ih.bindBody declare b (Cap.within_free v)).1.checking
        assign := fun e v => balanced.does_of_rel (ih.assignBody e (Cap.within_free v)).1.checking
        call := fun params body args => balanced.gives_of_rel
          (ih.callBody params body args).1.checking
        put := hput
        ticks := fun s => by
          obtain ⟨rest, hrest⟩ :=
            exists_checkingStep_eq holds (m := (guarded holds depth).execBody s) rfl
          exact ⟨_, rest, rfl, hrest⟩ }

/-! ### Parts of a script -/

/-- In whatever way the run ends, it keeps the stack. -/
def KeepsStack (m : Run α) : Prop := ∀ s, StackKept s (m.run s).2

theorem Balanced.keepsStack {m m' : Run α} (h : Balanced m m') : KeepsStack m :=
  fun _ => (h rfl).1

theorem KeepsStack.bind {m : Run α} {f : α → Run β} (hm : KeepsStack m)
    (hf : ∀ a, KeepsStack (f a)) : KeepsStack (m >>= f) :=
  ((Balanced.refl hm).bind fun a _ => .refl (hf a)).keepsStack

theorem KeepsStack.pure (a : α) : KeepsStack (Pure.pure a) := fun s => .refl s

/-- Every expression, statement, binding, assignment and call keeps the stack. -/
structure Interp.KeepsStack (i : Interp) : Prop where
  eval (e : Expr) : Script.KeepsStack (i.eval e)
  exec (s : Stmt) : Script.KeepsStack (i.exec s)
  bind (declare : Bool) (b : Binding) (v : Value) : Script.KeepsStack (i.bind declare b v)
  assign (e : Expr) (v : Value) : Script.KeepsStack (i.assign e v)
  call (params : List Binding) (body : Body) (args : List Value) :
    Script.KeepsStack (i.call params body args)

theorem keepsStack_interp (depth : Nat) : (interp put depth).KeepsStack where
  eval e := ((alike_guarded depth).eval e).1.keepsStack
  exec s := ((alike_guarded depth).exec s).1.keepsStack
  bind declare b v := ((alike_guarded depth).bind declare b v).1.keepsStack
  assign e v := ((alike_guarded depth).assign e v).1.keepsStack
  call params body args := ((alike_guarded depth).call params body args).1.keepsStack

section

variable {self : Interp} {body handler : List Stmt} {param : Option Binding}
  {finalizer : Option (List Stmt)} {f : Cause} {s t u : State}

/-- Where a body fails, the handler begins in the state to which binding the message has led. -/
theorem run_execAttempt_of_bound (hbody : (self.execBlock body).run s = (.error f.val, t))
    (hbind : (self.bindMessage param f).run t = (.ok (), u)) :
    (self.execAttempt body param (some handler) finalizer).run s =
      (do finish (self.execLast finalizer) (← observe (self.execBlock handler))).run u := by
  let prepare := self.bindMessage param
  have hhandled : (handled (self.execBlock body) prepare fun _ => self.execBlock handler).run s =
      (observe (self.execBlock handler)).run u :=
    (run_handled_of_isCatchable hbody f.property prepare _).trans (run_bind_of_ok hbind)
  change ((handled (self.execBlock body) prepare fun _ => self.execBlock handler) >>= _).run s = _
  rw [run_bind_eq, hhandled, ← run_bind_eq]

/-- The handler begins in the scopes of the statement that it is part of. -/
theorem stackKept_handler {depth : Nat}
    (hbody : ((interp put depth).execBlock body).run s = (.error f.val, t))
    (hbind : ((interp put depth).bindMessage param f).run t = (.ok (), u)) : StackKept s u :=
  have halike := alike_guarded depth
  ((halike.execBlock body).1 hbody).1.trans ((halike.bindMessage param f).1 hbind).1

end

/-! ### Calls -/

/-- The value that a function gives whose body ends in some way. -/
def Flow.value : Flow → Value
  | .give v => v
  | _       => .undefined

/-- The value of the body of a function. -/
def Interp.bodyValue (self : Interp) : Body → Run Value
  | .expr e      => self.eval e
  | .block stmts => do return (← self.execBlock stmts).value

/-- A call binds the parameters and takes the value of the body, in a scope of its own. -/
theorem call_succ_eq (depth : Nat) (params : List Binding) (code : Body) (args : List Value) :
    (interp put (depth + 1)).call params code args =
      inCall (do
        (interp put depth).bindParams params args
        (interp put depth).bodyValue code) := by
  cases code with
  | expr e => rfl
  | block stmts =>
    let self := interp put depth
    refine congrArg inCall (congrArg (self.bindParams params args >>= ·) (funext fun _ => ?_))
    refine congrArg (self.execBlock stmts >>= ·) (funext fun flow => ?_)
    cases flow <;> rfl

/-- What a scope of a call has held at some point of the call has been forgotten after it: below,
the variables of these names are as they were then. -/
def Forgotten (during after : State) : Prop :=
  ∀ name, HeldAt name 0 during.scopes →
    ∀ i, valueAt name i after.scopes = valueAt name (i + 1) during.scopes

section

variable {depth : Nat} {params : List Binding} {code : Body} {args : List Value} {s t u : State}

theorem keepsStack_bodyValue (depth : Nat) (code : Body) :
    KeepsStack ((interp put depth).bodyValue code) := by
  have halike := alike_guarded depth
  cases code with
  | expr e => exact (halike.eval e).1.keepsStack
  | block stmts => exact (halike.execBlock stmts).1.keepsStack.bind fun flow => .pure flow.value

theorem run_inCall_of_lt {α : Type} (hsteps : s.steps < s.limit) (hdepth : s.depth < maxCallDepth)
    (m : Run α) :
    (inCall m).run s = ((m.run (stepped s).enter).1, (m.run (stepped s).enter).2.leave) :=
  (run_bind_of_ok (run_tick_of_lt hsteps)).trans (run_inScope_of_lt (s := stepped s) hdepth rfl)

theorem run_inCall_of_le {α : Type} (hsteps : s.limit ≤ s.steps) (m : Run α) :
    (inCall m).run s = (.error .stepLimit, stepped s) :=
  run_bind_of_error (run_tick_of_le hsteps) _

/-- A call leaves the scopes that it has been made in, with no variable more but in the outermost
one. -/
theorem passed_call (depth : Nat) (params : List Binding) (code : Body) (args : List Value)
    (s : State) :
    Passed s.scopes (((interp put depth).call params code args).run s).2.scopes := by
  have passed_refl : Passed s.scopes s.scopes := ⟨.refl _, .inl⟩
  cases depth with
  | zero => exact passed_refl
  | succ depth =>
    rw [call_succ_eq]
    -- a call that is refused its step, or that nests too deep, has no scope of its own
    rcases Nat.lt_or_ge s.steps s.limit with hsteps | hsteps
    · rcases Nat.lt_or_ge s.depth maxCallDepth with hdepth | hdepth
      · have hbody := ((alike_guarded depth).bindParams params args).1.keepsStack.bind fun _ =>
          keepsStack_bodyValue depth code
        rw [run_inCall_of_lt hsteps hdepth]
        exact (hbody (stepped s).enter).scopes.passed_tail
      · rw [inCall, run_bind_of_ok (run_tick_of_lt hsteps),
          run_inScope_of_le (s := stepped s) hdepth]
        exact passed_refl
    · rw [run_inCall_of_le hsteps]
      exact passed_refl

/-- If what a call does from some point on keeps the stack, it forgets what its scope held there. -/
theorem forgotten_of_run {body rest : Run Value} (hrest : KeepsStack rest)
    (hsteps : s.steps < s.limit) (hdepth : s.depth < maxCallDepth)
    (hrun : body.run (stepped s).enter = rest.run u) :
    Forgotten u ((inCall body).run s).2 := by
  intro name hheld i
  rw [run_inCall_of_lt hsteps hdepth, hrun]
  exact valueAt_tail.trans ((hrest u).scopes.below hheld (Nat.succ_pos i))

/-- A call forgets its parameters. -/
theorem forgotten_params (hsteps : s.steps < s.limit) (hdepth : s.depth < maxCallDepth)
    (hparams : ((interp put depth).bindParams params args).run (stepped s).enter = (.ok (), u)) :
    Forgotten u (((interp put (depth + 1)).call params code args).run s).2 := by
  rw [call_succ_eq]
  exact forgotten_of_run (keepsStack_bodyValue depth code) hsteps hdepth (run_bind_of_ok hparams)

/-- Statements are executed after others that have ended normally. -/
theorem run_execAll_append {self : Interp} {first : List Stmt}
    (hfirst : (self.execAll first).run t = (.ok .normal, u)) (second : List Stmt) :
    (self.execAll (first ++ second)).run t = (self.execAll second).run u := by
  induction first generalizing t with
  | nil =>
    cases hfirst
    rfl
  | cons stmt first ih =>
    obtain ⟨flow, t', hstmt, hrest⟩ := exists_of_run_bind hfirst
    cases flow with
    | normal => exact (run_bind_of_ok hstmt).trans (ih hrest)
    | give | leave | again => cases hrest

/-- A call forgets its parameters, its functions, and the variables that its body has declared, from
each of the statements of its body on. -/
theorem forgotten_locals {first second : List Stmt} (hsteps : s.steps < s.limit)
    (hdepth : s.depth < maxCallDepth)
    (hfirst : (do
      (interp put depth).bindParams params args
      Interp.hoist (first ++ second)
      (interp put depth).execAll first).run (stepped s).enter = (.ok .normal, u)) :
    Forgotten u
      (((interp put (depth + 1)).call params (.block (first ++ second)) args).run s).2 := by
  obtain ⟨_, v, hparams, hfirst⟩ := exists_of_run_bind hfirst
  obtain ⟨_, w, hhoist, hfirst⟩ := exists_of_run_bind hfirst
  rw [call_succ_eq]
  have hrest : KeepsStack (do return (← (interp put depth).execAll second).value) :=
    ((alike_guarded depth).execAll second).1.keepsStack.bind fun flow => .pure flow.value
  refine forgotten_of_run hrest hsteps hdepth ((run_bind_of_ok hparams).trans ?_)
  have hblock : ((interp put depth).execBlock (first ++ second)).run v =
      ((interp put depth).execAll second).run u :=
    (run_bind_of_ok hhoist).trans (run_execAll_append hfirst second)
  rw [Interp.bodyValue, run_bind_eq, hblock, ← run_bind_eq]

end

/-! ### Scripts -/

theorem nested_initial (result : Value) (baseUrl? : Option String) (session : Session)
    (limit : Nat) : (State.initial result baseUrl? session limit).Nested :=
  ⟨rfl, Nat.zero_le _⟩

/-- A guard that there are as many scopes as there should be is never heard of, and the stack is at
the end what it was at the beginning. -/
theorem runGuarded_eq (source : List Char) (result : Value) (baseUrl? : Option String)
    (session : Session) (limit : Nat) :
    runGuarded (fun s => decide s.Nested) source result baseUrl? session limit =
        runWith put source result baseUrl? session limit ∧
      StackKept (State.initial result baseUrl? session limit)
        (runWith put source result baseUrl? session limit).2 := by
  unfold runGuarded runWith
  cases parse source with
  | error e => exact ⟨rfl, .refl _⟩
  | ok body =>
    obtain ⟨hkept, hsame⟩ := ((alike_guarded (maxDepth source.length)).run body).1
      (s := State.initial result baseUrl? session limit) rfl
    dsimp only
    rw [hsame (nested_initial result baseUrl? session limit)]
    exact ⟨rfl, hkept⟩

/-- **The scopes are a stack of the calls under way.**  At the beginning and at the end of every
part of a script there are as many scopes as calls under way, and one more, and not too many: a run
that is ended where this does not hold is the usual one; and at the end of a script no call is under
way.

Whatever is evaluated, executed, bound, assigned or called, and in whatever way it ends, leaves as
many scopes and calls under way as there were, and they are the same scopes: only the innermost and
the outermost can hold more variables than before.  So a handler begins in the scopes of the
statement that it is part of, in which the message is bound.

After a call, at most the outermost scope holds more variables than before it; and what the scope of
the call has held, parameters, functions and variables that its body has declared, is forgotten: the
variables of these names are those that were there when it came to hold them. -/
theorem scopes_match_calls (source : List Char) (result : Value) (baseUrl? : Option String)
    (session : Session) (limit : Nat) :
    (runGuarded (fun s => decide s.Nested) source result baseUrl? session limit =
        runWith put source result baseUrl? session limit ∧
      (runWith put source result baseUrl? session limit).2.depth = 0 ∧
      (runWith put source result baseUrl? session limit).2.scopes.length = 1) ∧
    (∀ depth, (interp put depth).KeepsStack) ∧
    (∀ (depth : Nat) {body handler : List Stmt} {param : Option Binding}
      {finalizer : Option (List Stmt)} {f : Cause} {s t u : State},
      ((interp put depth).execBlock body).run s = (.error f.val, t) →
      ((interp put depth).bindMessage param f).run t = (.ok (), u) →
        ((interp put depth).execAttempt body param (some handler) finalizer).run s =
            (do
              let o ← observe ((interp put depth).execBlock handler)
              finish ((interp put depth).execLast finalizer) o).run u ∧
          StackKept s u) ∧
    (∀ (depth : Nat) (params : List Binding) (code : Body) (args : List Value) (s : State),
      Passed s.scopes (((interp put depth).call params code args).run s).2.scopes) ∧
    (∀ (depth : Nat) {params : List Binding} {code : Body} {args : List Value} {s u : State},
      s.steps < s.limit → s.depth < maxCallDepth →
      ((interp put depth).bindParams params args).run (stepped s).enter = (.ok (), u) →
        Forgotten u (((interp put (depth + 1)).call params code args).run s).2) ∧
    ∀ (depth : Nat) {params : List Binding} {first second : List Stmt} {args : List Value}
      {s u : State}, s.steps < s.limit → s.depth < maxCallDepth →
      (do
        (interp put depth).bindParams params args
        Interp.hoist (first ++ second)
        (interp put depth).execAll first).run (stepped s).enter = (.ok .normal, u) →
        Forgotten u
          (((interp put (depth + 1)).call params (.block (first ++ second)) args).run s).2 := by
  obtain ⟨hsame, hkept⟩ := runGuarded_eq source result baseUrl? session limit
  refine ⟨⟨hsame, hkept.depth_eq, hkept.scopes.length_eq⟩, keepsStack_interp, ?_, passed_call,
    fun _ => forgotten_params, fun _ => forgotten_locals⟩
  intro depth body handler param finalizer f s t u hbody hbind
  exact ⟨run_execAttempt_of_bound hbody hbind, stackKept_handler hbody hbind⟩

/-! A function that fails in a callback, and one with a parameter and a variable. -/

/-- Takes care of the failure of a callback. -/
def failingCallback : List Char :=
  "function f(x) \x7b var y = x; throw y; \x7d ".toList ++
    "try \x7b ['a'].forEach(f); \x7d catch (e) \x7b result = e; \x7d result".toList

/-- A state in which no call is under way. -/
def outside : State := .initial .undefined none Session.empty 100

/-- The state in a call of a function that has a parameter, and has declared a variable. -/
def inside : State :=
  (stepped ((stepped outside).enter.declare "x" (.string "a"))).declare "y" (.string "a")

/-- Declares a variable with the value of the parameter. -/
def localVariable : List Stmt := [.vars [.mk (.name "y") (some (.name "x"))]]

theorem scopes_match_calls_failingCallback :
    runGuarded (fun s => decide s.Nested) failingCallback .undefined none Session.empty 100 =
      runWith put failingCallback .undefined none Session.empty 100 ∧
    (((interp put 8).execBlock [.throw (.string "x")]).run outside =
        (.error (.fault (.thrown "x")), stepped outside) ∧
      StackKept outside ((stepped outside).declare "e" (.string "x"))) ∧
    (outside.steps < outside.limit ∧ outside.depth < maxCallDepth ∧
      HeldAt "x" 0 inside.scopes ∧ HeldAt "y" 0 inside.scopes ∧
      Forgotten ((stepped outside).enter.declare "x" (.string "a"))
        (((interp put 9).call [.name "x"] (.block (localVariable ++ [.throw (.name "y")]))
          [.string "a"]).run outside).2 ∧
      Forgotten inside
        (((interp put 9).call [.name "x"] (.block (localVariable ++ [.throw (.name "y")]))
          [.string "a"]).run outside).2) := by
  obtain ⟨hguarded, -, hhandler, -, hparams, hlocals⟩ :=
    scopes_match_calls failingCallback .undefined none Session.empty 100
  have hbody : ((interp put 8).execBlock [.throw (.string "x")]).run outside =
      (.error (.fault (.thrown "x")), stepped outside) := rfl
  have hbind : ((interp put 8).bindMessage (some (.name "e")) ⟨.fault (.thrown "x"), rfl⟩).run
      (stepped outside) = (.ok (), (stepped outside).declare "e" (.string "x")) := rfl
  have hcaught : ((interp put 8).execAttempt [.throw (.string "x")] (some (.name "e")) (some [])
      none).run outside = _ ∧ StackKept outside ((stepped outside).declare "e" (.string "x")) :=
    hhandler 8 (f := ⟨.fault (.thrown "x"), rfl⟩) hbody hbind
  refine ⟨hguarded.1, ⟨hbody, hcaught.2⟩, by decide, by decide, rfl, rfl, ?_, ?_⟩
  · exact hparams 8 (by decide) (by decide) rfl
  · exact hlocals 8 (by decide) (by decide) rfl

end Scrape.Script
