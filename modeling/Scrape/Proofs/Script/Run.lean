import Mathlib.Logic.Basic
import Scrape.Script.Interp

/-!
# Script — Run, its laws

What the ways of putting runs together do to the outcome and the state.  A run that goes on after
another begins where that one has ended well (`run_bind_of_ok`), and does not begin where it has
failed (`run_bind_of_error`).  What a run can give (`Given`) is traced back to what its parts can.
A property of states that its parts keep, a run keeps (`Sustains`).
-/

namespace Scrape.Script

/-! ### States -/

namespace State

/-- The state with another limit of steps. -/
def withLimit (limit : Nat) (s : State) : State := { s with limit := limit }

variable (name : String) (v : Value) (s : State)

@[simp] theorem steps_declare : (s.declare name v).steps = s.steps := by
  unfold declare
  split <;> rfl

@[simp] theorem limit_declare : (s.declare name v).limit = s.limit := by
  unfold declare
  split <;> rfl

@[simp] theorem session_declare : (s.declare name v).session = s.session := by
  unfold declare
  split <;> rfl

theorem declare_withLimit (limit : Nat) :
    (s.withLimit limit).declare name v = (s.declare name v).withLimit limit := by
  obtain ⟨_, scopes, _, _, _, _⟩ := s
  cases scopes <;> rfl

end State

/-! ### Variables that are visible -/

/-- The variable of a name that is visible in some scopes. -/
def visible? (scopes : List Scope) (name : String) : Option Value :=
  scopes.findSome? (Keyed.get? name)

theorem visible?_cons (scope : Scope) (scopes : List Scope) (name : String) :
    visible? (scope :: scopes) name = (Keyed.get? name scope).or (visible? scopes name) := by
  rw [visible?, List.findSome?_cons]
  cases Keyed.get? name scope <;> rfl

/-- A variable that is put into the innermost scope is visible, and all others stay. -/
theorem visible?_put (scope : Scope) (scopes : List Scope) (name : String) (v : Value)
    (other : String) : visible? (Keyed.put name v scope :: scopes) other =
      if name = other then some v else visible? (scope :: scopes) other := by
  rw [visible?_cons, visible?_cons, Keyed.get?_put]
  split <;> rfl

/-- A variable that is set where it is found is visible, and all others stay. -/
theorem visible?_setIn {scopes : List Scope} (hne : scopes ≠ []) (name : String) (v : Value)
    (other : String) : visible? (State.setIn name v scopes) other =
      if name = other then some v else visible? scopes other := by
  fun_induction State.setIn name v scopes with
  | case1 => exact absurd rfl hne
  | case2 outermost => exact visible?_put outermost [] name v other
  | case3 scope r _ _ => exact visible?_put scope r name v other
  | case4 scope r hr hhas ih =>
    rw [visible?_cons, ih (fun h => hr h), visible?_cons]
    split
    · rename_i heq
      have hnone : Keyed.get? other scope = none := by simpa [Keyed.has, heq] using hhas
      rw [hnone, Option.none_or]
    · rfl

theorem setIn_ne_nil {scopes : List Scope} (hne : scopes ≠ []) (name : String) (v : Value) :
    State.setIn name v scopes ≠ [] := by
  fun_cases State.setIn name v scopes <;> simp_all

namespace Run

variable {α β : Type}

/-! ### Runs one after the other -/

theorem run_bind_eq (m : Run α) (f : α → Run β) (s : State) :
    (m >>= f).run s = ExceptT.bindCont f (m.run s).1 (m.run s).2 :=
  rfl

theorem run_bind_of_ok {m : Run α} {f : α → Run β} {s t : State} {a : α}
    (h : m.run s = (.ok a, t)) : (m >>= f).run s = (f a).run t := by
  rw [run_bind_eq, h]
  rfl

theorem run_bind_of_error {m : Run α} {s t : State} {e : Failure}
    (h : m.run s = (.error e, t)) (f : α → Run β) : (m >>= f).run s = (.error e, t) := by
  rw [run_bind_eq, h]
  rfl

/-- Two runs one after the other end well where both do. -/
theorem exists_of_run_bind {m : Run α} {f : α → Run β} {s u : State} {b : β}
    (h : (m >>= f).run s = (.ok b, u)) :
    ∃ a t, m.run s = (.ok a, t) ∧ (f a).run t = (.ok b, u) := by
  cases hmid : m.run s with
  | mk mid t =>
    cases mid with
    | error e =>
      rw [run_bind_of_error hmid] at h
      cases h
    | ok a =>
      rw [run_bind_of_ok hmid] at h
      exact ⟨a, t, rfl, h⟩

/-! ### Steps -/

/-- The state after a step. -/
def stepped (s : State) : State := { s with steps := s.steps + 1 }

theorem run_tick_of_lt {s : State} (h : s.steps < s.limit) : tick.run s = (.ok (), stepped s) := by
  change (if s.limit ≤ s.steps then (throw .stepLimit : Run Unit) else pure ()).run (stepped s) = _
  rw [if_neg (Nat.not_le_of_lt h)]
  rfl

theorem run_tick_of_le {s : State} (h : s.limit ≤ s.steps) :
    tick.run s = (.error .stepLimit, stepped s) := by
  change (if s.limit ≤ s.steps then (throw .stepLimit : Run Unit) else pure ()).run (stepped s) = _
  rw [if_pos h]
  rfl

/-! ### Calls -/

theorem run_inScope_of_le {s : State} (h : maxCallDepth ≤ s.depth) (body : Run α) :
    (inScope body).run s = (.error (.fault .callsTooDeep), s) :=
  if_pos h

theorem run_inScope_of_lt {s t : State} {o : Except Failure α} (h : s.depth < maxCallDepth)
    {body : Run α} (hbody : body.run s.enter = (o, t)) : (inScope body).run s = (o, t.leave) :=
  (if_neg (Nat.not_le_of_lt h)).trans (congrArg (fun r => (r.1, r.2.leave)) hbody)

/-- Declaring functions takes no step. -/
theorem run_hoist (body : List Stmt) (s : State) :
    ∃ t, (Interp.hoist body).run s = (.ok (), t) ∧ t.steps = s.steps ∧ t.limit = s.limit := by
  fun_induction Interp.hoist body generalizing s with
  | case1 => exact ⟨s, rfl, rfl, rfl⟩
  | case2 name params body r ih =>
    let made : State := { s with functions := s.functions + 1 }
    obtain ⟨t, ht, hsteps, hlimit⟩ :=
      ih (made.declare name (.function s.functions params (.block body)))
    exact ⟨t, ht, by simpa [made] using hsteps, by simpa [made] using hlimit⟩
  | case3 s' r _ ih => exact ih s

/-! ### Failures that are taken care of -/

theorem run_observe {body : Run α} {s t : State} {o : Except Failure α} (h : body.run s = (o, t)) :
    (observe body).run s = (.ok o, t) := by
  change (Except.ok (body.run s).1, (body.run s).2) = _
  rw [h]

theorem run_handled_of_ok {body : Run α} {s t : State} {a : α} (h : body.run s = (.ok a, t))
    (prepare : Cause → Run Unit) (handler : Cause → Run α) :
    (handled body prepare handler).run s = (.ok (.ok a), t) := by
  rw [handled, run_bind_of_ok (run_observe h)]
  rfl

theorem run_handled_of_not_isCatchable {body : Run α} {s t : State} {f : Failure}
    (h : body.run s = (.error f, t)) (hf : f.isCatchable ≠ true)
    (prepare : Cause → Run Unit) (handler : Cause → Run α) :
    (handled body prepare handler).run s = (.ok (.error f), t) := by
  rw [handled, run_bind_of_ok (run_observe h)]
  dsimp only
  rw [dif_neg hf]
  rfl

theorem run_handled_of_isCatchable {body : Run α} {s t : State} {f : Failure}
    (h : body.run s = (.error f, t)) (hf : f.isCatchable = true)
    (prepare : Cause → Run Unit) (handler : Cause → Run α) :
    (handled body prepare handler).run s =
      (prepare ⟨f, hf⟩ >>= fun _ => observe (handler ⟨f, hf⟩)).run t := by
  rw [handled, run_bind_of_ok (run_observe h)]
  dsimp only
  rw [dif_pos hf]

/-! ### What a run can give -/

/-- From some state, the run gives the value. -/
def Given (m : Run α) (a : α) : Prop := ∃ s t, m.run s = (.ok a, t)

namespace Given

theorem bind {m : Run α} {f : α → Run β} {b : β} (h : Given (m >>= f) b) :
    ∃ a, Given m a ∧ Given (f a) b := by
  obtain ⟨s, u, hrun⟩ := h
  obtain ⟨a, t, hm, hf⟩ := exists_of_run_bind hrun
  exact ⟨a, ⟨s, t, hm⟩, t, u, hf⟩

theorem pure {a b : α} (h : Given (Pure.pure a : Run α) b) : b = a := by
  obtain ⟨s, t, hrun⟩ := h
  cases hrun
  rfl

theorem throw {e : Failure} {a : α} (h : Given (throw e : Run α) a) : False := by
  obtain ⟨s, t, hrun⟩ := h
  cases hrun

theorem inScope {m : Run α} {a : α} (h : Given (Run.inScope m) a) : Given m a := by
  obtain ⟨s, t, hrun⟩ := h
  rcases Nat.lt_or_ge s.depth maxCallDepth with hlt | hge
  · cases hbody : m.run s.enter with
    | mk o u =>
      rw [run_inScope_of_lt hlt hbody] at hrun
      cases hrun
      exact ⟨_, _, hbody⟩
  · rw [run_inScope_of_le hge] at hrun
    cases hrun

theorem inCall {m : Run α} {a : α} (h : Given (Run.inCall m) a) : Given m a := by
  obtain ⟨_, -, hbody⟩ := h.bind
  exact hbody.inScope

theorem go {round : Run (Option α)} {a : α} :
    ∀ {n}, Given (repeatedly.go round n) a → Given round (some a) := by
  intro n
  induction n with
  | zero => exact fun h => h.throw.elim
  | succ n ih =>
    intro h
    obtain ⟨_, -, h⟩ := h.bind
    obtain ⟨a?, hround, h⟩ := h.bind
    cases a? with
    | some b => rwa [h.pure]
    | none => exact ih h

theorem repeatedly {round : Run (Option α)} {a : α} (h : Given (Run.repeatedly round) a) :
    Given round (some a) := by
  obtain ⟨_, -, h⟩ := h.bind
  exact h.go

theorem observe {m : Run α} {o : Except Failure α} (h : Given (Run.observe m) o) :
    ∀ a, o = .ok a → Given m a := by
  rintro a rfl
  obtain ⟨s, t, hrun⟩ := h
  cases hbody : m.run s with
  | mk o u =>
    rw [run_observe hbody] at hrun
    cases hrun
    exact ⟨s, _, hbody⟩

theorem handled {body : Run α} {prepare : Cause → Run Unit} {handler : Cause → Run α} {a : α}
    (h : Given (Run.handled body prepare handler) (.ok a)) :
    Given body a ∨ ∃ f, Given (handler f) a := by
  obtain ⟨o, hbody, h⟩ := h.bind
  cases o with
  | ok b =>
    cases h.pure
    exact .inl (hbody.observe a rfl)
  | error f =>
    dsimp only at h
    split at h
    · obtain ⟨_, -, hhandler⟩ := h.bind
      exact .inr ⟨_, hhandler.observe a rfl⟩
    · cases h.pure

theorem finish {last : Run (Option α)} {o : Except Failure α} {a : α}
    (h : Given (Run.finish last o) a) : o = .ok a ∨ Given last (some a) := by
  obtain ⟨a?, hlast, h⟩ := h.bind
  cases a? with
  | some b =>
    cases h.pure
    exact .inr hlast
  | none =>
    cases o with
    | ok b =>
      cases h.pure
      exact .inl rfl
    | error e => exact h.throw.elim

theorem attempt {body : Run α} {prepare : Cause → Run Unit} {handler : Cause → Run α}
    {last : Run (Option α)} {a : α} (h : Given (Run.attempt body prepare handler last) a) :
    Given body a ∨ (∃ f, Given (handler f) a) ∨ Given last (some a) := by
  obtain ⟨o, hhandled, h⟩ := h.bind
  rcases h.finish with rfl | hlast
  · exact hhandled.handled.imp id .inl
  · exact .inr (.inr hlast)

end Given

/-! ### Properties of states that runs keep -/

/-- A property of states that lasts when a step is taken, and when a call begins or ends. -/
structure Lasts (holds : State → Prop) : Prop where
  stepped {s : State} : holds s → holds (stepped s)
  enter {s : State} : holds s → holds s.enter
  leave {s : State} : holds s → holds s.leave

/-- From a state with a property, the second run does what the first does, the state has the property
again, and what is given has one of its own. -/
def Sustains (holds : State → Prop) (P : α → Prop) (m m' : Run α) : Prop :=
  ∀ ⦃s o t⦄, holds s → m.run s = (o, t) → m'.run s = (o, t) ∧ holds t ∧ ∀ a, o = .ok a → P a

namespace Sustains

variable {holds : State → Prop} {P : α → Prop} {Q : β → Prop} {m m' : Run α}

theorem bind {f f' : α → Run β} (hm : Sustains holds P m m')
    (hf : ∀ a, P a → Sustains holds Q (f a) (f' a)) : Sustains holds Q (m >>= f) (m' >>= f') := by
  intro s o u hs hrun
  cases hmid : m.run s with
  | mk mid t =>
    obtain ⟨hsame, ht, hP⟩ := hm hs hmid
    cases mid with
    | error e =>
      rw [run_bind_of_error hmid] at hrun
      obtain ⟨rfl, rfl⟩ := Prod.mk.inj hrun
      exact ⟨run_bind_of_error hsame f', ht, nofun⟩
    | ok a =>
      rw [run_bind_of_ok hmid] at hrun
      rw [run_bind_of_ok hsame]
      exact hf a (hP a rfl) ht hrun

/-- A run with itself, if it keeps the property. -/
theorem refl (h : ∀ ⦃s o t⦄, holds s → m.run s = (o, t) → holds t ∧ ∀ a, o = .ok a → P a) :
    Sustains holds P m m :=
  fun _ _ _ hs hrun => ⟨hrun, h hs hrun⟩

theorem pure {a : α} (ha : P a) : Sustains holds P (Pure.pure a) (Pure.pure a) :=
  refl fun _ _ _ hs hrun => by cases hrun; exact ⟨hs, fun b hb => by cases hb; exact ha⟩

theorem throw (e : Failure) : Sustains holds P (throw e : Run α) (MonadExcept.throw e) :=
  refl fun _ _ _ hs hrun => by cases hrun; exact ⟨hs, nofun⟩

theorem tick (h : Lasts holds) : Sustains holds (fun _ => True) Run.tick Run.tick := by
  refine refl fun s o t hs hrun => ⟨?_, fun _ _ => trivial⟩
  rcases Nat.lt_or_ge s.steps s.limit with hlt | hge
  · rw [run_tick_of_lt hlt] at hrun
    cases hrun
    exact h.stepped hs
  · rw [run_tick_of_le hge] at hrun
    cases hrun
    exact h.stepped hs

theorem inScope (hlasts : Lasts holds) (h : Sustains holds P m m') :
    Sustains holds P (Run.inScope m) (Run.inScope m') := by
  intro s o u hs hrun
  rcases Nat.lt_or_ge s.depth maxCallDepth with hlt | hge
  · cases hbody : m.run s.enter with
    | mk o' t =>
      rw [run_inScope_of_lt hlt hbody] at hrun
      obtain ⟨rfl, rfl⟩ := Prod.mk.inj hrun
      obtain ⟨hsame, ht, hP⟩ := h (hlasts.enter hs) hbody
      exact ⟨run_inScope_of_lt hlt hsame, hlasts.leave ht, hP⟩
  · rw [run_inScope_of_le hge] at hrun
    obtain ⟨rfl, rfl⟩ := Prod.mk.inj hrun
    exact ⟨run_inScope_of_le hge m', hs, nofun⟩

theorem inCall (hlasts : Lasts holds) (h : Sustains holds P m m') :
    Sustains holds P (Run.inCall m) (Run.inCall m') :=
  (tick hlasts).bind fun _ _ => h.inScope hlasts

section

variable {round round' : Run (Option α)}

theorem go (hlasts : Lasts holds) (h : Sustains holds (fun a? => ∀ a ∈ a?, P a) round round') :
    ∀ n, Sustains holds P (repeatedly.go round n) (repeatedly.go round' n) := by
  intro n
  induction n with
  | zero => exact throw _
  | succ n ih =>
    refine (tick hlasts).bind fun _ _ => h.bind fun a? ha => ?_
    cases a? with
    | some a => exact pure (ha a rfl)
    | none => exact ih

theorem repeatedly (hlasts : Lasts holds)
    (h : Sustains holds (fun a? => ∀ a ∈ a?, P a) round round') :
    Sustains holds P (Run.repeatedly round) (Run.repeatedly round') :=
  fun s _ _ hs hrun => go hlasts h (s.stepsLeft + 1) hs hrun

end

theorem observe (h : Sustains holds P m m') :
    Sustains holds (fun o => ∀ a, o = .ok a → P a) (Run.observe m) (Run.observe m') := by
  intro s o t hs hrun
  cases hbody : m.run s with
  | mk result u =>
    rw [run_observe hbody] at hrun
    obtain ⟨rfl, rfl⟩ := Prod.mk.inj hrun
    obtain ⟨hsame, hu, hP⟩ := h hs hbody
    exact ⟨run_observe hsame, hu, fun o ho => by cases ho; exact hP⟩

section

variable {body body' : Run α} {prepare prepare' : Cause → Run Unit}
  {handler handler' : Cause → Run α} {last last' : Run (Option α)}

theorem handled (hbody : Sustains holds P body body')
    (hprepare : ∀ f, Sustains holds (fun _ => True) (prepare f) (prepare' f))
    (hhandler : ∀ f, Sustains holds P (handler f) (handler' f)) :
    Sustains holds (fun o => ∀ a, o = .ok a → P a) (Run.handled body prepare handler)
      (Run.handled body' prepare' handler') := by
  refine hbody.observe.bind fun o ho => ?_
  cases o with
  | ok a => exact pure ho
  | error f =>
    dsimp only
    split
    · exact (hprepare _).bind fun _ _ => (hhandler _).observe
    · exact pure nofun

theorem finish (hlast : Sustains holds (fun a? => ∀ a ∈ a?, P a) last last')
    {o : Except Failure α} (ho : ∀ a, o = .ok a → P a) :
    Sustains holds P (Run.finish last o) (Run.finish last' o) := by
  refine hlast.bind fun a? ha => ?_
  cases a? with
  | some a => exact pure (ha a rfl)
  | none =>
    cases o with
    | ok a => exact pure (ho a rfl)
    | error e => exact throw e

theorem attempt (hbody : Sustains holds P body body')
    (hprepare : ∀ f, Sustains holds (fun _ => True) (prepare f) (prepare' f))
    (hhandler : ∀ f, Sustains holds P (handler f) (handler' f))
    (hlast : Sustains holds (fun a? => ∀ a ∈ a?, P a) last last') :
    Sustains holds P (Run.attempt body prepare handler last)
      (Run.attempt body' prepare' handler' last') :=
  (hbody.handled hprepare hhandler).bind fun _ ho => hlast.finish ho

end

end Sustains

end Run

end Scrape.Script
