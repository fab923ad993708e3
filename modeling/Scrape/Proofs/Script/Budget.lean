import Mathlib.Order.Nat
import Scrape.Proofs.Script.Silent

/-!
# Script — Budget

Runs that may take some steps only.  A part of a run that begins with no step refused is refused
one if and only if it fails for that, whatever takes care of failures in it, and does the same with
a greater limit unless it is (`Metered`).  What the effects of putting do after a step has been
refused makes no difference, since none is made then.

Main statement (`run_budget`): a run that is not refused a step has the same outcome and session
with every greater limit; one that is refused a step anywhere fails for that; and in none is
anything put into the session after a step has been refused.
-/

namespace Scrape.Script

open Run

variable {α β : Type}

/-- That a step is refused is no failure that a script can take care of. -/
theorem Cause.ne_stepLimit (f : Cause) : f.val ≠ .stepLimit := by
  intro h
  simpa [h, Failure.isCatchable] using f.property

/-- What a run does with its steps when it has been refused none before: it never gives steps back,
and it is refused a step if and only if it fails for that. -/
structure Meter (s : State) (o : Except Failure α) (t : State) : Prop where
  steps_le : s.steps ≤ t.steps
  limit_eq : t.limit = s.limit
  refused_iff : o = .error .stepLimit ↔ t.limit < t.steps

namespace Meter

variable {s t u : State} {o : Except Failure α} {o' : Except Failure β}

theorem trans (h : Meter s o t) (h' : Meter t o' u) : Meter s o' u :=
  ⟨h.steps_le.trans h'.steps_le, h'.limit_eq.trans h.limit_eq, h'.refused_iff⟩

theorem steps_le_limit (h : Meter s o t) (ho : o ≠ .error .stepLimit) : t.steps ≤ t.limit :=
  Nat.not_lt.mp (mt h.refused_iff.mpr ho)

theorem limit_lt (h : Meter s o t) (ho : o = .error .stepLimit) : t.limit < t.steps :=
  h.refused_iff.mp ho

/-- The failure of a part is the failure of the whole. -/
theorem error {e : Failure} (h : Meter s (.error e : Except Failure α) t) :
    Meter s (.error e : Except Failure β) t :=
  ⟨h.steps_le, h.limit_eq, by rw [← h.refused_iff]; simp⟩

end Meter

/-! ### Runs from one state -/

/-- From a state, a run keeps the meter, a second one does the same, and so does a third one from
the state with another limit, unless a step is refused. -/
def Keeps (s : State) (limit : Nat) (m m' more : Run α) : Prop :=
  ∀ ⦃o t⦄, m.run s = (o, t) → Meter s o t ∧ m'.run s = (o, t) ∧
    (o ≠ .error .stepLimit → more.run (s.withLimit limit) = (o, t.withLimit limit))

namespace Keeps

variable {s : State} {limit : Nat}

theorem bind {m m' more : Run α} {f f' more' : α → Run β} (hm : Keeps s limit m m' more)
    (hf : ∀ a t, m.run s = (.ok a, t) → t.steps ≤ t.limit → t.limit = s.limit →
      Keeps t limit (f a) (f' a) (more' a)) :
    Keeps s limit (m >>= f) (m' >>= f') (more >>= more') := by
  intro o u hrun
  cases hmid : m.run s with
  | mk mid t =>
    obtain ⟨hmeter, hsame, hmore⟩ := hm hmid
    cases mid with
    | error e =>
      rw [run_bind_of_error hmid] at hrun
      obtain ⟨rfl, rfl⟩ := Prod.mk.inj hrun
      refine ⟨hmeter.error, run_bind_of_error hsame f', fun ho => ?_⟩
      exact run_bind_of_error (hmore fun he => ho (by cases he; rfl)) more'
    | ok a =>
      rw [run_bind_of_ok hmid] at hrun
      have hok : (.ok a : Except Failure α) ≠ .error .stepLimit := by simp
      obtain ⟨hmeter', hsame', hmore'⟩ :=
        hf a t hmid (hmeter.steps_le_limit hok) hmeter.limit_eq hrun
      refine ⟨hmeter.trans hmeter', (run_bind_of_ok hsame).trans hsame', fun ho => ?_⟩
      exact (run_bind_of_ok (hmore hok)).trans (hmore' ho)

/-- A run that neither looks at the steps nor takes any. -/
theorem of_quiet {m : Run α} {o : Except Failure α} {t : State} (hs : s.steps ≤ s.limit)
    (hrun : m.run s = (o, t)) (ho : o ≠ .error .stepLimit) (hsteps : t.steps = s.steps)
    (hlimit : t.limit = s.limit) (hmore : m.run (s.withLimit limit) = (o, t.withLimit limit)) :
    Keeps s limit m m m := by
  intro o' t' hrun'
  obtain ⟨rfl, rfl⟩ := Prod.mk.inj (hrun.symm.trans hrun')
  refine ⟨⟨hsteps.ge, hlimit, ?_⟩, hrun, fun _ => hmore⟩
  rw [hsteps, hlimit]
  exact ⟨fun h => absurd h ho, fun h => absurd h (Nat.not_lt.mpr hs)⟩

theorem pure (hs : s.steps ≤ s.limit) (a : α) :
    Keeps s limit (Pure.pure a : Run α) (Pure.pure a) (Pure.pure a) :=
  of_quiet hs rfl (by simp) rfl rfl rfl

theorem throw (hs : s.steps ≤ s.limit) {e : Failure} (he : e ≠ .stepLimit) :
    Keeps s limit (throw e : Run α) (MonadExcept.throw e) (MonadExcept.throw e) :=
  of_quiet hs rfl (fun h => he (Except.error.inj h)) rfl rfl rfl

theorem tick (hlimit : s.limit ≤ limit) :
    Keeps s limit Run.tick Run.tick Run.tick := by
  intro o t hrun
  rcases Nat.lt_or_ge s.steps s.limit with hlt | hge
  · rw [run_tick_of_lt hlt] at hrun
    obtain ⟨rfl, rfl⟩ := Prod.mk.inj hrun
    refine ⟨⟨Nat.le_succ _, rfl, ?_⟩, run_tick_of_lt hlt, fun _ => ?_⟩
    · exact ⟨fun h => by simp at h, fun h => absurd h (Nat.not_lt.mpr hlt)⟩
    · exact run_tick_of_lt (s := s.withLimit limit) (hlt.trans_le hlimit)
  · rw [run_tick_of_le hge] at hrun
    obtain ⟨rfl, rfl⟩ := Prod.mk.inj hrun
    refine ⟨⟨Nat.le_succ _, rfl, ?_⟩, run_tick_of_le hge, fun ho => absurd rfl ho⟩
    exact ⟨fun _ => Nat.lt_succ_of_le hge, fun _ => rfl⟩

theorem inScope {m m' more : Run α} (hs : s.steps ≤ s.limit)
    (h : Keeps s.enter limit m m' more) :
    Keeps s limit (Run.inScope m) (Run.inScope m') (Run.inScope more) := by
  intro o u hrun
  rcases Nat.lt_or_ge s.depth maxCallDepth with hlt | hge
  · cases hbody : m.run s.enter with
    | mk o' t =>
      rw [run_inScope_of_lt hlt hbody] at hrun
      obtain ⟨rfl, rfl⟩ := Prod.mk.inj hrun
      obtain ⟨hmeter, hsame, hmore⟩ := h hbody
      exact ⟨⟨hmeter.steps_le, hmeter.limit_eq, hmeter.refused_iff⟩, run_inScope_of_lt hlt hsame,
        fun ho => run_inScope_of_lt (s := s.withLimit limit) hlt (hmore ho)⟩
  · rw [run_inScope_of_le hge] at hrun
    obtain ⟨rfl, rfl⟩ := Prod.mk.inj hrun
    refine ⟨⟨Nat.le_refl _, rfl, ?_⟩, run_inScope_of_le hge m',
      fun _ => run_inScope_of_le (s := s.withLimit limit) hge more⟩
    exact ⟨fun h => by simp at h, fun h => absurd h (Nat.not_lt.mpr hs)⟩

end Keeps

/-! ### Runs from all states -/

/-- Two runs that do the same and keep the meter where no step has been refused, whatever they do
where one has been.  The first of them does the same with a greater limit, unless it is refused a
step. -/
def Metered (m m' : Run α) : Prop :=
  ∀ ⦃s : State⦄ ⦃limit : Nat⦄, s.steps ≤ s.limit → s.limit ≤ limit → Keeps s limit m m' m

namespace Metered

theorem bind {m m' : Run α} {f f' : α → Run β} (hm : Metered m m')
    (hf : ∀ a, Given m a → Metered (f a) (f' a)) : Metered (m >>= f) (m' >>= f') := by
  intro s limit hs hlimit
  exact (hm hs hlimit).bind fun a t hrun ht heq => hf a ⟨s, t, hrun⟩ ht (heq ▸ hlimit)

theorem throw {e : Failure} (he : e ≠ .stepLimit) :
    Metered (throw e : Run α) (MonadExcept.throw e) := by
  intro s limit hs _
  exact Keeps.throw hs he

theorem setVar (declare : Bool) (name : String) (v : Value) :
    Metered (Run.setVar declare name v) (Run.setVar declare name v) := by
  intro s limit hs _
  cases declare with
  | false => exact Keeps.of_quiet hs rfl (by simp) rfl rfl rfl
  | true =>
    refine Keeps.of_quiet (t := s.declare name v) hs rfl (by simp) (by simp) (by simp) ?_
    rw [← State.declare_withLimit]
    rfl

theorem inCall {m m' : Run α} (h : Metered m m') : Metered (Run.inCall m) (Run.inCall m') := by
  intro s limit hs hlimit
  refine (Keeps.tick hlimit).bind fun _ t _ ht heq => ?_
  exact Keeps.inScope ht (h ht (heq ▸ hlimit))

/-- The rounds of a loop, to which more are given than there are steps left, however many. -/
theorem go {round round' : Run (Option α)} (h : Metered round round') {limit : Nat} :
    ∀ {n n' more : Nat} {s : State}, s.steps ≤ s.limit → s.limit ≤ limit →
      s.limit < s.steps + n → s.limit < s.steps + n' → limit < s.steps + more →
      Keeps s limit (repeatedly.go round n) (repeatedly.go round' n')
        (repeatedly.go round more) := by
  intro n
  induction n with
  | zero => intro n' more s hs _ hn; omega
  | succ n ih =>
    intro n' more s hs hlimit hn hn' hmore
    -- none of the three is at its end, since a step is left or is refused
    obtain ⟨k', rfl⟩ : ∃ k', n' = k' + 1 := ⟨n' - 1, by omega⟩
    obtain ⟨k, rfl⟩ : ∃ k, more = k + 1 := ⟨more - 1, by omega⟩
    refine (Keeps.tick hlimit).bind fun _ t hticked ht heq => ?_
    have hsteps : t.steps = s.steps + 1 := by
      rcases Nat.lt_or_ge s.steps s.limit with hlt | hge
      · rw [run_tick_of_lt hlt] at hticked
        exact (Prod.mk.inj hticked).2 ▸ rfl
      · rw [run_tick_of_le hge] at hticked
        cases hticked
    refine (h ht (heq ▸ hlimit)).bind fun next u hround hu heq' => ?_
    have hle : t.steps ≤ u.steps := (h ht (heq ▸ hlimit) hround).1.steps_le
    cases next with
    | some a => exact Keeps.pure hu a
    | none => exact ih hu (by omega) (by omega) (by omega) (by omega)

theorem repeatedly {round round' : Run (Option α)} (h : Metered round round') :
    Metered (Run.repeatedly round) (Run.repeatedly round') := by
  intro s limit hs hlimit
  have hleft : s.limit < s.steps + (s.stepsLeft + 1) := by
    rw [State.stepsLeft]
    omega
  have hmore : limit < s.steps + ((s.withLimit limit).stepsLeft + 1) := by
    simp only [State.stepsLeft, State.withLimit]
    omega
  exact go h hs hlimit hleft hleft hmore

end Metered

/-! ### Failures that are taken care of -/

/-- The outcome that is meant by the outcome of a run that gives one. -/
def meant : Except Failure (Except Failure α) → Except Failure α
  | .ok o    => o
  | .error e => .error e

/-- `Keeps` of runs that give an outcome, which is the one that is meant. -/
def KeepsMeant (s : State) (limit : Nat) (m m' more : Run (Except Failure α)) : Prop :=
  ∀ ⦃o t⦄, m.run s = (o, t) → Meter s (meant o) t ∧ m'.run s = (o, t) ∧
    (meant o ≠ .error .stepLimit → more.run (s.withLimit limit) = (o, t.withLimit limit))

namespace KeepsMeant

variable {s : State} {limit : Nat}

theorem observe {m m' more : Run α} (h : Keeps s limit m m' more) :
    KeepsMeant s limit (Run.observe m) (Run.observe m') (Run.observe more) := by
  intro o t hrun
  cases hbody : m.run s with
  | mk result u =>
    rw [run_observe hbody] at hrun
    obtain ⟨rfl, rfl⟩ := Prod.mk.inj hrun
    obtain ⟨hmeter, hsame, hmore⟩ := h hbody
    exact ⟨hmeter, run_observe hsame, fun ho => run_observe (hmore ho)⟩

/-- What is done first keeps the meter, and then what gives the outcome does. -/
theorem after {first first' firstMore : Run Unit} {m m' more : Run (Except Failure α)}
    (hfirst : Keeps s limit first first' firstMore)
    (h : ∀ t, t.steps ≤ t.limit → t.limit = s.limit → KeepsMeant t limit m m' more) :
    KeepsMeant s limit (first >>= fun _ => m) (first' >>= fun _ => m')
      (firstMore >>= fun _ => more) := by
  intro o u hrun
  cases hmid : first.run s with
  | mk mid t =>
    obtain ⟨hmeter, hsame, hmore⟩ := hfirst hmid
    cases mid with
    | error e =>
      rw [run_bind_of_error hmid] at hrun
      obtain ⟨rfl, rfl⟩ := Prod.mk.inj hrun
      refine ⟨hmeter.error, run_bind_of_error hsame _, fun ho => ?_⟩
      exact run_bind_of_error (hmore fun he => ho (by cases he; rfl)) _
    | ok _ =>
      have hok : (.ok () : Except Failure Unit) ≠ .error .stepLimit := by simp
      rw [run_bind_of_ok hmid] at hrun
      obtain ⟨hmeter', hsame', hmore'⟩ := h t (hmeter.steps_le_limit hok) hmeter.limit_eq hrun
      refine ⟨hmeter.trans hmeter', (run_bind_of_ok hsame).trans hsame', fun ho => ?_⟩
      exact (run_bind_of_ok (hmore hok)).trans (hmore' ho)

end KeepsMeant

namespace Metered

variable {body body' : Run α} {prepare prepare' : Cause → Run Unit}
  {handler handler' : Cause → Run α} {last last' : Run (Option α)}

/-- A handler is not begun after a step has been refused, for that failure is not one that it
takes care of. -/
theorem handled (hbody : Metered body body') (hprepare : ∀ f, Metered (prepare f) (prepare' f))
    (hhandler : ∀ f, Metered (handler f) (handler' f)) {s : State} {limit : Nat}
    (hs : s.steps ≤ s.limit) (hlimit : s.limit ≤ limit) :
    KeepsMeant s limit (Run.handled body prepare handler) (Run.handled body' prepare' handler')
      (Run.handled body prepare handler) := by
  intro o u hrun
  cases hmid : body.run s with
  | mk mid t =>
    obtain ⟨hmeter, hsame, hmore⟩ := hbody hs hlimit hmid
    cases mid with
    | ok a =>
      rw [run_handled_of_ok hmid] at hrun
      obtain ⟨rfl, rfl⟩ := Prod.mk.inj hrun
      exact ⟨hmeter, run_handled_of_ok hsame _ _, fun ho => run_handled_of_ok (hmore ho) _ _⟩
    | error f =>
      by_cases hf : f.isCatchable = true
      · have hne : (.error f : Except Failure α) ≠ .error .stepLimit :=
          fun h => Cause.ne_stepLimit ⟨f, hf⟩ (Except.error.inj h)
        have hlimit' : t.limit ≤ limit := hmeter.limit_eq ▸ hlimit
        rw [run_handled_of_isCatchable hmid hf] at hrun
        rw [run_handled_of_isCatchable hsame hf, run_handled_of_isCatchable (hmore hne) hf]
        obtain ⟨hmeter', hkept⟩ := KeepsMeant.after
          (hprepare ⟨f, hf⟩ (hmeter.steps_le_limit hne) hlimit')
          (fun v hv heq => .observe (hhandler ⟨f, hf⟩ hv (heq ▸ hlimit'))) hrun
        exact ⟨hmeter.trans hmeter', hkept⟩
      · rw [run_handled_of_not_isCatchable hmid hf] at hrun
        obtain ⟨rfl, rfl⟩ := Prod.mk.inj hrun
        exact ⟨hmeter, run_handled_of_not_isCatchable hsame hf _ _,
          fun ho => run_handled_of_not_isCatchable (hmore ho) hf _ _⟩

/-- What is done at last leaves the failure of a run that has been refused a step. -/
theorem finish (hlast : Metered last last') (hidle : Idle last last') {s t u : State}
    {limit : Nat} {o r : Except Failure α} (hmeter : Meter s o t) (hlimit : s.limit ≤ limit)
    (hrun : (Run.finish last o).run t = (r, u)) :
    Meter s r u ∧ (Run.finish last' o).run t = (r, u) ∧ (r ≠ .error .stepLimit →
      o ≠ .error .stepLimit ∧
        (Run.finish last o).run (t.withLimit limit) = (r, u.withLimit limit)) := by
  by_cases ho : o = .error .stepLimit
  · subst ho
    obtain ⟨q, v, hq, hq', hidle, hle, heq⟩ := hidle t (hmeter.limit_lt rfl).le
    have refused (last : Run (Option α)) (h : last.run t = (q, v)) :
        (Run.finish last (.error .stepLimit)).run t = (.error .stepLimit, v) := by
      rcases hidle with rfl | rfl
      · exact run_bind_of_ok h
      · exact run_bind_of_error h _
    rw [refused last hq] at hrun
    obtain ⟨rfl, rfl⟩ := Prod.mk.inj hrun
    refine ⟨⟨hmeter.steps_le.trans hle, heq.trans hmeter.limit_eq, ?_⟩, refused last' hq',
      fun hr => absurd rfl hr⟩
    exact ⟨fun _ => heq ▸ (hmeter.limit_lt rfl).trans_le hle, fun _ => rfl⟩
  · have ht := hmeter.steps_le_limit ho
    have hkeeps : Keeps t limit (Run.finish last o) (Run.finish last' o) (Run.finish last o) := by
      refine (hlast ht (hmeter.limit_eq ▸ hlimit)).bind fun a? v _ hv _ => ?_
      cases a? with
      | some a => exact Keeps.pure hv a
      | none =>
        cases o with
        | ok a => exact Keeps.pure hv a
        | error e => exact Keeps.throw hv fun he => ho (he ▸ rfl)
    obtain ⟨hmeter', hsame, hmore⟩ := hkeeps hrun
    exact ⟨hmeter.trans hmeter', hsame, fun hr => ⟨ho, hmore hr⟩⟩

theorem attempt (hbody : Metered body body') (hprepare : ∀ f, Metered (prepare f) (prepare' f))
    (hhandler : ∀ f, Metered (handler f) (handler' f)) (hlast : Metered last last')
    (hidle : Idle last last') :
    Metered (Run.attempt body prepare handler last)
      (Run.attempt body' prepare' handler' last') := by
  intro s limit hs hlimit r u hrun
  cases hmid : (Run.handled body prepare handler).run s with
  | mk mid t =>
    obtain ⟨hmeter, hsame, hmore⟩ := handled hbody hprepare hhandler hs hlimit hmid
    cases mid with
    | error e =>
      rw [Run.attempt, run_bind_of_error hmid] at hrun
      obtain ⟨rfl, rfl⟩ := Prod.mk.inj hrun
      exact ⟨hmeter, run_bind_of_error hsame _, fun hr => run_bind_of_error (hmore hr) _⟩
    | ok o =>
      rw [Run.attempt, run_bind_of_ok hmid] at hrun
      obtain ⟨hmeter', hsame', hmore'⟩ := finish hlast hidle hmeter hlimit hrun
      refine ⟨hmeter', (run_bind_of_ok hsame).trans hsame', fun hr => ?_⟩
      obtain ⟨ho, hmore'⟩ := hmore' hr
      exact (run_bind_of_ok (hmore ho)).trans hmore'

end Metered

/-- Keeping the meter, as a relation that every way of putting runs together keeps. -/
def metered : Congruence.Plain where
  rel := Metered
  pure a := fun _ _ hs _ => Keeps.pure hs a
  bind := Metered.bind
  fail f := Metered.throw f.ne_stepLimit
  exhausted := @fun _ => Metered.throw (by simp)
  tick := fun _ _ _ hlimit => Keeps.tick hlimit
  lookup? _ := fun _ _ hs _ => Keeps.of_quiet hs rfl (by simp) rfl rfl rfl
  setVar := Metered.setVar
  newFunction _ _ := fun _ _ hs _ => Keeps.of_quiet hs rfl (by simp) rfl rfl rfl
  sessionValue _ := fun _ _ hs _ => Keeps.of_quiet hs rfl (by simp) rfl rfl rfl
  inCall := Metered.inCall
  repeatedly := Metered.repeatedly
  attempt := Metered.attempt

/-! ### Scripts -/

/-- An effect of putting that is the usual one as long as no step has been refused, and any other
after that. -/
def UsualInTime (put' : String → Value → Run Unit) : Prop :=
  ∀ key v s, s.steps ≤ s.limit → (put' key v).run s = (put key v).run s

variable {put' : String → Value → Run Unit}

theorem metered_put (h : UsualInTime put') (key : String) (v : Value) :
    Metered (put key v) (put' key v) := by
  intro s limit hs _ o t hrun
  have hkeeps : Keeps s limit (put key v) (put key v) (put key v) :=
    Keeps.of_quiet hs rfl (by simp) rfl rfl rfl
  obtain ⟨hmeter, hsame, hmore⟩ := hkeeps hrun
  exact ⟨hmeter, (h key v s hs).trans hsame, hmore⟩

/-- Every part of a script keeps the meter, to whatever depth it is given a meaning. -/
theorem alike_interp_of_usualInTime (h : UsualInTime put') (depth : Nat) :
    metered.congruence.Alike (interp put depth) (interp put' depth) :=
  metered.alike_interp (metered_put h) depth

/-- A run that begins with no step refused never gives steps back, and is refused one if and only
if it fails for that. -/
def KeepsMeter (m : Run α) : Prop :=
  ∀ s, s.steps ≤ s.limit → Meter s (m.run s).1 (m.run s).2

theorem Metered.keepsMeter {m m' : Run α} (h : Metered m m') : KeepsMeter m :=
  fun _ hs => (h hs le_rfl rfl).1

/-- Every expression, statement, binding, assignment and call keeps the meter. -/
structure Interp.KeepsMeter (i : Interp) : Prop where
  eval (e : Expr) : Script.KeepsMeter (i.eval e)
  exec (s : Stmt) : Script.KeepsMeter (i.exec s)
  bind (declare : Bool) (b : Binding) (v : Value) : Script.KeepsMeter (i.bind declare b v)
  assign (e : Expr) (v : Value) : Script.KeepsMeter (i.assign e v)
  call (params : List Binding) (body : Body) (args : List Value) :
    Script.KeepsMeter (i.call params body args)

theorem keepsMeter_interp (depth : Nat) : (interp put depth).KeepsMeter := by
  have husual : UsualInTime put := fun _ _ _ _ => rfl
  have h := alike_interp_of_usualInTime husual depth
  exact
    { eval := fun e => (h.eval e).1.keepsMeter
      exec := fun s => (h.exec s).1.keepsMeter
      bind := fun declare b v => (h.bind declare b v).1.keepsMeter
      assign := fun e v => (h.assign e v).1.keepsMeter
      call := fun params body args => (h.call params body args).1.keepsMeter }

section

variable (source : List Char) (result : Value) (baseUrl? : Option String) (session : Session)

theorem runWith_of_parse {put : String → Value → Run Unit} {body : List Stmt} {limit : Nat}
    {o : Except Failure Value} {t : State} (hparse : parse source = .ok body)
    (hrun : ((interp put (maxDepth source.length)).run body).run
      (State.initial result baseUrl? session limit) = (o, t)) :
    runWith put source result baseUrl? session limit = (o.mapError .run, t) := by
  rw [runWith, hparse]
  dsimp only
  rw [hrun]

/-- A script of one expression gives its value, after one step. -/
theorem run_of_expr {e : Expr} {limit : Nat} {v : Value} {t : State}
    (hparse : parse source = .ok [.expr e]) (he : e.isAssignment = false) (hlimit : 0 < limit)
    (hrun : ((interp put (maxDepth source.length)).eval e).run
      (stepped (State.initial result baseUrl? session limit)) = (.ok v, t)) :
    (run source result baseUrl? session limit).1 = .ok v := by
  let start := State.initial result baseUrl? session limit
  have hhoist : (Interp.hoist [.expr e]).run start = (.ok (), start) := rfl
  have hbody : ((interp put (maxDepth source.length)).run [.expr e]).run start = (.ok v, t) := by
    refine (run_bind_of_ok hhoist).trans ?_
    rw [Interp.runStmts, if_neg (by simp [he])]
    exact (run_bind_of_ok (run_tick_of_lt hlimit)).trans hrun
  rw [run, runWith_of_parse source result baseUrl? session hparse hbody]
  rfl

/-- **The budget of a script.**  A run that does not fail for a refused step has the same outcome
and leaves the same session with every greater limit.  A run that is refused a step, so that the
steps it has taken or has been refused exceed its limit, fails for that, and only such a run does;
and so does each part of it, whatever it is part of.  Whatever putting did after a step has been
refused, the run would be the same, so that nothing is put into the session then; and nothing but
putting writes to it. -/
theorem run_budget (limit : Nat) :
    ((run source result baseUrl? session limit).1 ≠ .error (.run .stepLimit) →
      ∀ more, limit ≤ more →
        run source result baseUrl? session more = run source result baseUrl? session limit) ∧
    (limit < (runWith put source result baseUrl? session limit).2.steps ↔
      (run source result baseUrl? session limit).1 = .error (.run .stepLimit)) ∧
    (∀ depth, (interp put depth).KeepsMeter) ∧
    (∀ put', UsualInTime put' →
      runWith put' source result baseUrl? session limit =
        runWith put source result baseUrl? session limit) ∧
    ∀ put', (∀ key v, Silent (put' key v)) →
      (runWith put' source result baseUrl? session limit).2.session = session := by
  have hsilent (put' : String → Value → Run Unit) (h : ∀ key v, Silent (put' key v)) :
      (runWith put' source result baseUrl? session limit).2.session = session :=
    silent_runWith h source result baseUrl? session limit
  cases hparse : parse source with
  | error e =>
    have hwith (put' : String → Value → Run Unit) :
        runWith put' source result baseUrl? session limit =
          (.error (.parse e), State.initial result baseUrl? session limit) := by
      rw [runWith, hparse]
    refine ⟨fun _ more _ => ?_, ?_, keepsMeter_interp, fun put' _ => ?_, hsilent⟩
    · simp [run, runWith, hparse, State.initial]
    · simp [run, hwith, State.initial]
    · rw [hwith, hwith]
  | ok body =>
    let start := State.initial result baseUrl? session limit
    let machine := interp put (maxDepth source.length)
    have hkeeps {put' : String → Value → Run Unit} (h : UsualInTime put') {more : Nat}
        (hmore : limit ≤ more) : Keeps start more (machine.run body)
          ((interp put' (maxDepth source.length)).run body) (machine.run body) :=
      ((alike_interp_of_usualInTime h _).run body).1 (Nat.zero_le _) hmore
    cases hrun : (machine.run body).run start with
    | mk o t =>
      have husual : UsualInTime put := fun _ _ _ _ => rfl
      have hmeter := (hkeeps husual le_rfl hrun).1
      have hwith := runWith_of_parse source result baseUrl? session hparse hrun
      have hrefused : o.mapError EvalError.run = .error (.run .stepLimit) ↔
          o = .error .stepLimit := by
        cases o <;> simp [Except.mapError]
      simp only [run, hwith, hrefused]
      refine ⟨fun hne more hmore => ?_, ?_, keepsMeter_interp, fun put' h => ?_, hsilent⟩
      · have hrun' := (hkeeps husual hmore hrun).2.2 (mt hrefused.mpr hne)
        rw [runWith_of_parse source result baseUrl? session hparse hrun']
        rfl
      · rw [hmeter.refused_iff, hmeter.limit_eq]
        rfl
      · have hrun' := (hkeeps h le_rfl hrun).2.1
        exact runWith_of_parse source result baseUrl? session hparse hrun'

end

/-! A script that sorts, and is refused a step in the comparison. -/

/-- Sorts two numbers with a comparison, in a statement that takes care of failures, and puts
something into the session in any case. -/
def sortingScript : List Char :=
  "let l = [2, 1]; try \x7b l.sort((a, b) => a - b); \x7d catch (e) \x7b l = []; \x7d".toList ++
    "finally \x7b context.put('k', l[0]); \x7d l[0]".toList

/-- An effect of putting that fails after a step has been refused. -/
def putInTime (key : String) (v : Value) : Run Unit := do
  let s ← get
  if s.steps ≤ s.limit then put key v else throw .json

theorem usualInTime_putInTime : UsualInTime putInTime := by
  intro key v s hs
  change (if s.steps ≤ s.limit then put key v else throw .json).run s = _
  rw [if_pos hs]

theorem sortingScript_budget :
    run sortingScript .null none Session.empty 1000 = run sortingScript .null none Session.empty 100 ∧
    (run sortingScript .null none Session.empty 3).1 = .error (.run .stepLimit) ∧
    runWith putInTime sortingScript .null none Session.empty 3 =
      runWith put sortingScript .null none Session.empty 3 ∧
    (runWith (fun _ _ => pure ()) sortingScript .null none Session.empty 100).2.session =
      Session.empty := by
  have enough : ((run sortingScript .null none Session.empty 100).1).isOk = true := by decide +kernel
  have refused : 3 < (runWith put sortingScript .null none Session.empty 3).2.steps := by
    decide +kernel
  refine ⟨?_, ?_, ?_, ?_⟩
  · refine (run_budget sortingScript .null none Session.empty 100).1 (fun h => ?_) 1000 (by decide)
    rw [h] at enough
    cases enough
  · exact (run_budget sortingScript .null none Session.empty 3).2.1.mp refused
  · exact (run_budget sortingScript .null none Session.empty 3).2.2.2.1 putInTime
      usualInTime_putInTime
  · exact (run_budget sortingScript .null none Session.empty 100).2.2.2.2 _
      fun _ _ => Silent.pure ()

end Scrape.Script
