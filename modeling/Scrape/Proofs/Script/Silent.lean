import Scrape.Proofs.Script.Alike

/-!
# Script — Silent

Runs that leave the session as it is (`Silent`).  What is put together from such runs is such a run.

Main statement (`silent_runWith`): nothing but putting writes to the session, so that a script with
an effect of putting that leaves the session as it is leaves it as it was.
-/

namespace Scrape.Script

open Run

variable {α β : Type}

/-- A run that leaves the session as it is. -/
def Silent (m : Run α) : Prop := ∀ s, (m.run s).2.session = s.session

namespace Silent

theorem bind {m : Run α} {f : α → Run β} (hm : Silent m) (hf : ∀ a, Given m a → Silent (f a)) :
    Silent (m >>= f) := by
  intro s
  have hs := hm s
  cases h : m.run s with
  | mk o t =>
    rw [h] at hs
    cases o with
    | error e =>
      rw [run_bind_of_error h]
      exact hs
    | ok a =>
      rw [run_bind_of_ok h]
      exact (hf a ⟨s, t, h⟩ t).trans hs

theorem pure (a : α) : Silent (Pure.pure a : Run α) := fun _ => rfl

theorem throw (e : Failure) : Silent (throw e : Run α) := fun _ => rfl

theorem tick : Silent Run.tick := by
  intro s
  rcases Nat.lt_or_ge s.steps s.limit with hlt | hge
  · rw [run_tick_of_lt hlt]
    rfl
  · rw [run_tick_of_le hge]
    rfl

theorem setVar (declare : Bool) (name : String) (v : Value) :
    Silent (Run.setVar declare name v) := by
  intro s
  cases declare with
  | false => rfl
  | true => exact State.session_declare name v s

theorem inScope {m : Run α} (h : Silent m) : Silent (Run.inScope m) := by
  intro s
  rcases Nat.lt_or_ge s.depth maxCallDepth with hlt | hge
  · have hs := h s.enter
    cases hbody : m.run s.enter with
    | mk o t =>
      rw [hbody] at hs
      rw [run_inScope_of_lt hlt hbody]
      exact hs
  · rw [run_inScope_of_le hge]

/-- Runs of which each leaves the session as it is, one after the other. -/
def sequential : Congruence.Sequential where
  rel m _ := Silent m
  pure := pure
  throw := throw
  tick := tick
  bind := bind

theorem repeatedly {round : Run (Option α)} (h : Silent round) : Silent (Run.repeatedly round) :=
  fun s => sequential.go (show sequential.rel round round from h) (s.stepsLeft + 1) s

theorem observe {m : Run α} (h : Silent m) : Silent (Run.observe m) := fun s => h s

theorem handled {body : Run α} {prepare : Cause → Run Unit} {handler : Cause → Run α}
    (hbody : Silent body) (hprepare : ∀ f, Silent (prepare f))
    (hhandler : ∀ f, Silent (handler f)) : Silent (Run.handled body prepare handler) := by
  have hbody : sequential.rel (Run.observe body) (Run.observe body) := hbody.observe
  have hprepare (f : Cause) : sequential.rel (prepare f) (prepare f) := hprepare f
  have hhandler (f : Cause) : sequential.rel (Run.observe (handler f)) (Run.observe (handler f)) :=
    (hhandler f).observe
  exact sequential.handled hbody hprepare hhandler

theorem finish {last : Run (Option α)} (h : Silent last) (o : Except Failure α) :
    Silent (Run.finish last o) :=
  sequential.finish (show sequential.rel last last from h) o

end Silent

/-- Leaving the session as it is, as a relation that every way of putting runs together keeps. -/
def silent : Congruence.Plain where
  rel m _ := Silent m
  pure := Silent.pure
  bind := Silent.bind
  fail f := Silent.throw f.val
  exhausted := Silent.throw .exhausted
  tick := Silent.tick
  lookup? _ := fun _ => rfl
  setVar := Silent.setVar
  newFunction _ _ := fun _ => rfl
  sessionValue _ := fun _ => rfl
  inCall h := Silent.tick.bind fun _ _ => h.inScope
  repeatedly := Silent.repeatedly
  attempt hbody hprepare hhandler hlast _ :=
    (hbody.handled hprepare hhandler).bind fun o _ => hlast.finish o

/-- **Nothing but putting writes to the session.** -/
theorem silent_runWith {put' : String → Value → Run Unit} (h : ∀ key v, Silent (put' key v))
    (source : List Char) (result : Value) (baseUrl? : Option String) (session : Session)
    (limit : Nat) : (runWith put' source result baseUrl? session limit).2.session = session := by
  have halike (depth : Nat) : silent.congruence.Alike (interp put' depth) (interp put' depth) :=
    silent.alike_interp h depth
  unfold runWith
  split
  · rfl
  · exact ((halike _).run _).1 _

end Scrape.Script
