import Scrape.Proofs.Script.Budget
import Scrape.Proofs.Script.Watched

/-!
# Script — Spared

A run that is watched does the same as the usual one, unless the watch ends it (`Spared`).

Main statement (`runWatched_eq_runWith`): a run that a watch lets through is the usual one.
-/

namespace Scrape.Script

open Run

variable {α β : Type}

/-- From a state with a limit of steps, two runs do the same and keep the limit, unless the first is
ended for good. -/
def Spared (m m' : Run α) : Prop :=
  ∀ ⦃s o t⦄, 0 < s.limit → m.run s = (o, t) →
    (t.limit = s.limit ∧ m'.run s = (o, t)) ∨ o = .error .stepLimit ∧ t.limit = 0

namespace Spared

theorem bind {m m' : Run α} {f f' : α → Run β} (hm : Spared m m')
    (hf : ∀ a, Given m a → Spared (f a) (f' a)) : Spared (m >>= f) (m' >>= f') := by
  intro s o u hs hrun
  cases hmid : m.run s with
  | mk mid t =>
    rcases hm hs hmid with ⟨hlimit, hsame⟩ | ⟨rfl, hended⟩
    · cases mid with
      | error e =>
        rw [run_bind_of_error hmid] at hrun
        obtain ⟨rfl, rfl⟩ := Prod.mk.inj hrun
        exact .inl ⟨hlimit, run_bind_of_error hsame f'⟩
      | ok a =>
        rw [run_bind_of_ok hmid] at hrun
        rw [run_bind_of_ok hsame]
        exact (hf a ⟨s, t, hmid⟩ (hlimit ▸ hs) hrun).imp
          (fun h => ⟨h.1.trans hlimit, h.2⟩) id
    · rw [run_bind_of_error hmid] at hrun
      obtain ⟨rfl, rfl⟩ := Prod.mk.inj hrun
      exact .inr ⟨rfl, hended⟩

/-- A run with itself, if it keeps the limit. -/
theorem refl {m : Run α} (h : ∀ s, (m.run s).2.limit = s.limit) : Spared m m :=
  fun s _ _ _ hrun => .inl ⟨by rw [← h s, hrun], hrun⟩

theorem pure (a : α) : Spared (Pure.pure a) (Pure.pure a) := refl fun _ => rfl

theorem throw (e : Failure) : Spared (throw e : Run α) (MonadExcept.throw e) := refl fun _ => rfl

theorem tick : Spared Run.tick Run.tick := by
  refine refl fun s => ?_
  rcases Nat.lt_or_ge s.steps s.limit with hlt | hge
  · rw [run_tick_of_lt hlt]
    rfl
  · rw [run_tick_of_le hge]
    rfl

theorem setVar (declare : Bool) (name : String) (v : Value) :
    Spared (Run.setVar declare name v) (Run.setVar declare name v) := by
  refine refl fun s => ?_
  cases declare with
  | false => rfl
  | true => exact State.limit_declare name v s

theorem inScope {m m' : Run α} (h : Spared m m') : Spared (Run.inScope m) (Run.inScope m') := by
  intro s o u hs hrun
  rcases Nat.lt_or_ge s.depth maxCallDepth with hlt | hge
  · cases hbody : m.run s.enter with
    | mk o' t =>
      rw [run_inScope_of_lt hlt hbody] at hrun
      obtain ⟨rfl, rfl⟩ := Prod.mk.inj hrun
      exact (h (s := s.enter) hs hbody).imp (fun h => ⟨h.1, run_inScope_of_lt hlt h.2⟩) id
  · rw [run_inScope_of_le hge] at hrun
    obtain ⟨rfl, rfl⟩ := Prod.mk.inj hrun
    exact .inl ⟨rfl, run_inScope_of_le hge m'⟩

/-- Spared runs, one after the other. -/
def sequential : Congruence.Sequential where
  rel := Spared
  pure := pure
  throw := throw
  tick := tick
  bind := bind

theorem repeatedly {round round' : Run (Option α)} (h : Spared round round') :
    Spared (Run.repeatedly round) (Run.repeatedly round') :=
  fun s _ _ hs hrun => sequential.go h (s.stepsLeft + 1) hs hrun

/-! ### Failures that are taken care of -/

/-- `Spared` for runs that give an outcome, which is the one that is meant. -/
def Meant (m m' : Run (Except Failure α)) : Prop :=
  ∀ ⦃s o t⦄, 0 < s.limit → m.run s = (o, t) →
    (t.limit = s.limit ∧ m'.run s = (o, t)) ∨ meant o = .error .stepLimit ∧ t.limit = 0

theorem observe {m m' : Run α} (h : Spared m m') : Meant (Run.observe m) (Run.observe m') := by
  intro s o t hs hrun
  cases hbody : m.run s with
  | mk result u =>
    rw [run_observe hbody] at hrun
    obtain ⟨rfl, rfl⟩ := Prod.mk.inj hrun
    exact (h hs hbody).imp (fun h => ⟨h.1, run_observe h.2⟩) id

/-- What is done first is spared, and then what gives the outcome is. -/
theorem after {first first' : Run Unit} {m m' : Run (Except Failure α)}
    (hfirst : Spared first first') (h : Meant m m') :
    Meant (first >>= fun _ => m) (first' >>= fun _ => m') := by
  intro s o u hs hrun
  cases hmid : first.run s with
  | mk mid t =>
    rcases hfirst hs hmid with ⟨hlimit, hsame⟩ | ⟨rfl, hended⟩
    · cases mid with
      | error e =>
        rw [run_bind_of_error hmid] at hrun
        obtain ⟨rfl, rfl⟩ := Prod.mk.inj hrun
        exact .inl ⟨hlimit, run_bind_of_error hsame _⟩
      | ok _ =>
        rw [run_bind_of_ok hmid] at hrun
        rw [run_bind_of_ok hsame]
        exact (h (hlimit ▸ hs) hrun).imp (fun h => ⟨h.1.trans hlimit, h.2⟩) id
    · rw [run_bind_of_error hmid] at hrun
      obtain ⟨rfl, rfl⟩ := Prod.mk.inj hrun
      exact .inr ⟨rfl, hended⟩

variable {body body' : Run α} {prepare prepare' : Cause → Run Unit}
  {handler handler' : Cause → Run α} {last last' : Run (Option α)}

/-- That a run is ended is no failure that a handler takes care of. -/
theorem handled (hbody : Spared body body') (hprepare : ∀ f, Spared (prepare f) (prepare' f))
    (hhandler : ∀ f, Spared (handler f) (handler' f)) :
    Meant (Run.handled body prepare handler) (Run.handled body' prepare' handler') := by
  intro s o u hs hrun
  cases hmid : body.run s with
  | mk mid t =>
    rcases hbody hs hmid with ⟨hlimit, hsame⟩ | ⟨rfl, hended⟩
    · cases mid with
      | ok a =>
        rw [run_handled_of_ok hmid] at hrun
        obtain ⟨rfl, rfl⟩ := Prod.mk.inj hrun
        exact .inl ⟨hlimit, run_handled_of_ok hsame _ _⟩
      | error f =>
        by_cases hf : f.isCatchable = true
        · rw [run_handled_of_isCatchable hmid hf] at hrun
          rw [run_handled_of_isCatchable hsame hf]
          exact (after (hprepare ⟨f, hf⟩) (observe (hhandler ⟨f, hf⟩)) (hlimit ▸ hs) hrun).imp
            (fun h => ⟨h.1.trans hlimit, h.2⟩) id
        · rw [run_handled_of_not_isCatchable hmid hf] at hrun
          obtain ⟨rfl, rfl⟩ := Prod.mk.inj hrun
          exact .inl ⟨hlimit, run_handled_of_not_isCatchable hsame hf _ _⟩
    · rw [run_handled_of_not_isCatchable hmid (by decide)] at hrun
      obtain ⟨rfl, rfl⟩ := Prod.mk.inj hrun
      exact .inr ⟨rfl, hended⟩

/-- What is done at last leaves the failure of a run that has been ended. -/
theorem run_finish_of_ended (hidle : Idle last last') {t : State} (ht : t.limit = 0) :
    ∃ u, (Run.finish last (.error .stepLimit)).run t = (.error .stepLimit, u) ∧ u.limit = 0 := by
  obtain ⟨q, u, hq, -, rfl | rfl, -, heq⟩ := hidle t (ht ▸ Nat.zero_le _)
  · exact ⟨u, run_bind_of_ok hq, heq.trans ht⟩
  · exact ⟨u, run_bind_of_error hq _, heq.trans ht⟩

theorem finish (hlast : Spared last last') (o : Except Failure α) :
    Spared (Run.finish last o) (Run.finish last' o) :=
  sequential.finish hlast o

theorem attempt (hbody : Spared body body') (hprepare : ∀ f, Spared (prepare f) (prepare' f))
    (hhandler : ∀ f, Spared (handler f) (handler' f)) (hlast : Spared last last')
    (hidle : Idle last last') :
    Spared (Run.attempt body prepare handler last) (Run.attempt body' prepare' handler' last') := by
  intro s r u hs hrun
  cases hmid : (Run.handled body prepare handler).run s with
  | mk mid t =>
    rcases handled hbody hprepare hhandler hs hmid with ⟨hlimit, hsame⟩ | ⟨hmeant, hended⟩
    · cases mid with
      | error e =>
        rw [Run.attempt, run_bind_of_error hmid] at hrun
        obtain ⟨rfl, rfl⟩ := Prod.mk.inj hrun
        exact .inl ⟨hlimit, run_bind_of_error hsame _⟩
      | ok o =>
        rw [Run.attempt, run_bind_of_ok hmid] at hrun
        rw [Run.attempt, run_bind_of_ok hsame]
        exact (finish hlast o (hlimit ▸ hs) hrun).imp (fun h => ⟨h.1.trans hlimit, h.2⟩) id
    -- the run is ended: what is done at last is still begun, but has no step left
    · cases mid with
      | error e =>
        rw [Run.attempt, run_bind_of_error hmid] at hrun
        obtain ⟨rfl, rfl⟩ := Prod.mk.inj hrun
        exact .inr ⟨by simpa [meant] using hmeant, hended⟩
      | ok o =>
        obtain rfl : o = .error .stepLimit := hmeant
        obtain ⟨v, hfinish, hv⟩ := run_finish_of_ended hidle hended
        rw [Run.attempt, run_bind_of_ok hmid, hfinish] at hrun
        obtain ⟨rfl, rfl⟩ := Prod.mk.inj hrun
        exact .inr ⟨rfl, hv⟩

/-- A run with something insisted on before it, and the run alone. -/
theorem insist {m m' : Run α} (holds : Bool) (h : Spared m m') :
    Spared (do Run.insist holds; m) m' := by
  cases holds with
  | true => exact fun _ _ _ hs hrun => h hs hrun
  | false =>
    intro s o t _ hrun
    cases hrun
    exact .inr ⟨rfl, rfl⟩

end Spared

/-- Being spared, as a relation that every way of putting runs together keeps. -/
def spared : Congruence.Plain where
  rel := Spared
  pure := Spared.pure
  bind := Spared.bind
  fail f := Spared.throw f.val
  exhausted := @fun _ => Spared.throw .exhausted
  tick := Spared.tick
  lookup? _ := Spared.refl fun _ => rfl
  setVar := Spared.setVar
  newFunction _ _ := Spared.refl fun _ => rfl
  sessionValue _ := Spared.refl fun _ => rfl
  inCall h := Spared.tick.bind fun _ _ => h.inScope
  repeatedly := Spared.repeatedly
  attempt := Spared.attempt

variable {cap : Cap} {watch : Watch}

theorem spared_inspect {m m' : Run Value} (h : Spared m m') (e : Expr) :
    Spared (do Cap.inspect watch e (← m)) m' := by
  rw [← bind_pure m']
  refine h.bind fun v _ => ?_
  exact fun s o t hs hrun => Spared.insist (watch e v s) (Spared.pure v) hs hrun

/-- A machine that is watched and the usual one are alike, unless a run is ended. -/
theorem alike_interp_watched (depth : Nat) :
    spared.congruence.Alike (cap.watched watch depth) (interp put depth) := by
  have hput (key : String) (v : Value) : spared.congruence.does (put key v) (put key v) :=
    spared.does_of_rel (Spared.refl fun _ => rfl)
  induction depth with
  | zero => exact spared.congruence.alike_zero hput
  | succ depth ih =>
    exact
      -- without a cap the values need no proof; only what is watched differs
      { eval := fun e => spared.gives_of_rel (spared_inspect (ih.evalBody e).1 e)
        exec := ih.execBody
        bind := fun declare b v => spared.does_of_rel
          (Spared.insist _ (ih.bindBody declare b (Cap.within_free v)).1)
        assign := fun e v => spared.does_of_rel
          (Spared.insist _ (ih.assignBody e (Cap.within_free v)).1)
        call := ih.callBody
        put := hput
        ticks := fun _ => ⟨_, _, rfl, rfl⟩ }

/-- **A run that a watch lets through is the usual one.** -/
theorem runWatched_eq_runWith {source : List Char} {result : Value} {baseUrl? : Option String}
    {session : Session} {limit : Nat} (hlimit : 0 < limit)
    (h : cap.Keeps watch source result baseUrl? session limit) :
    cap.runWatched watch source result baseUrl? session limit =
      runWith put source result baseUrl? session limit := by
  cases hparse : parse source with
  | error e => rw [runWatched_of_parse_error hparse, runWith, hparse]
  | ok body =>
    have halike : spared.congruence.Alike (cap.watched watch (maxDepth source.length))
        (interp put (maxDepth source.length)) :=
      alike_interp_watched _
    cases hrun : ((cap.watched watch (maxDepth source.length)).run body).run
        (State.initial result baseUrl? session limit) with
    | mk o t =>
      have hwatched := runWatched_of_parse hparse hrun
      rw [Cap.Keeps, hwatched] at h
      rcases (halike.run body).1 hlimit hrun with ⟨-, hsame⟩ | ⟨-, hended⟩
      · rw [hwatched, runWith_of_parse source result baseUrl? session hparse hsame]
      · exact absurd (h.symm.trans hended) hlimit.ne'

end Scrape.Script
