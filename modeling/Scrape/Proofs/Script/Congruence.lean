import Scrape.Proofs.Script.Cap
import Scrape.Proofs.Script.Run

/-!
# Script — Congruence

Relations between runs that every way of putting runs together keeps (`Congruence`).  Such a
relation comes with a cap on values: what a run does has to be related only where the values it is
given are within the cap, and it is known to give such values in turn.  The relation holds between a
run and itself where the run is not put together from the parts of a script.  A relation that asks
for no cap is one with the cap that every value is within (`Congruence.Plain`).  Rounds, handlers and
what is done at last are runs that follow one another (`Congruence.Sequential`).
-/

namespace Scrape.Script

open Run

/-- Two runs that do the same when no step is left: they give nothing, or are refused a step. -/
def Idle {α : Type} (last last' : Run (Option α)) : Prop :=
  ∀ s : State, s.limit ≤ s.steps → ∃ o t, last.run s = (o, t) ∧ last'.run s = (o, t) ∧
    (o = .ok none ∨ o = .error .stepLimit) ∧ s.steps ≤ t.steps ∧ t.limit = s.limit

/-- A relation between runs that is kept by the ways in which runs are put together.  It says of
the first run that what it gives has a property; values have that of being within a cap. -/
structure Congruence where
  cap : Cap
  sound : cap.Sound
  rel : {α : Type} → (α → Prop) → Run α → Run α → Prop
  pure {α : Type} {P : α → Prop} {a : α} : P a → rel P (Pure.pure a) (Pure.pure a)
  bind {α β : Type} {P : α → Prop} {Q : β → Prop} {m m' : Run α} {f f' : α → Run β} :
    rel P m m' → (∀ a, P a → rel Q (f a) (f' a)) → rel Q (m >>= f) (m' >>= f')
  fail {α : Type} {P : α → Prop} (f : Cause) : rel P (throw f.val : Run α) (throw f.val)
  exhausted {α : Type} {P : α → Prop} : rel P (throw .exhausted : Run α) (throw .exhausted)
  tick : rel (fun _ => True) Run.tick Run.tick
  lookup? (name : String) :
    rel (fun v? => ∀ v ∈ v?, cap.within v = true) (Run.lookup? name) (Run.lookup? name)
  setVar (declare : Bool) (name : String) {v : Value} : cap.within v = true →
    rel (fun _ => True) (Run.setVar declare name v) (Run.setVar declare name v)
  newFunction (params : List Binding) (body : Body) :
    rel (fun v => cap.within v = true) (Run.newFunction params body) (Run.newFunction params body)
  sessionValue (key : String) :
    rel (fun _ => True) (Run.sessionValue key) (Run.sessionValue key)
  inCall {α : Type} {P : α → Prop} {m m' : Run α} :
    rel P m m' → rel P (Run.inCall m) (Run.inCall m')
  repeatedly {α : Type} {P : α → Prop} {round round' : Run (Option α)} :
    rel (fun a? => ∀ a ∈ a?, P a) round round' →
      rel P (Run.repeatedly round) (Run.repeatedly round')
  attempt {α : Type} {P : α → Prop} {body body' : Run α} {prepare prepare' : Cause → Run Unit}
    {handler handler' : Cause → Run α} {last last' : Run (Option α)} :
    rel P body body' → (∀ f, rel (fun _ => True) (prepare f) (prepare' f)) →
      (∀ f, rel P (handler f) (handler' f)) → rel (fun a? => ∀ a ∈ a?, P a) last last' →
      Idle last last' →
      rel P (Run.attempt body prepare handler last) (Run.attempt body' prepare' handler' last')

namespace Congruence

section

variable (c : Congruence)

/-- The relation between runs of which nothing is known but what they do. -/
abbrev does {α : Type} (m m' : Run α) : Prop := c.rel (fun _ => True) m m'

/-- The relation between runs that give a value within the cap. -/
abbrev gives (m m' : Run Value) : Prop := c.rel (fun v => c.cap.within v = true) m m'

/-- The relation between runs that give values within the cap. -/
abbrev givesAll (m m' : Run (List Value)) : Prop := c.rel c.cap.Within m m'

/-! ### Runs that are not put together from parts of a script -/

theorem weaken {α : Type} {P Q : α → Prop} {m m' : Run α} (hm : c.rel P m m')
    (h : ∀ a, P a → Q a) : c.rel Q m m' := by
  have hbind := c.bind hm fun a ha => c.pure (h a ha)
  rwa [bind_pure, bind_pure] at hbind

theorem map {α β : Type} {P : α → Prop} {Q : β → Prop} {f : α → β} {m m' : Run α}
    (hm : c.rel P m m') (h : ∀ a, P a → Q (f a)) : c.rel Q (f <$> m) (f <$> m') := by
  rw [map_eq_pure_bind, map_eq_pure_bind]
  exact c.bind hm fun a ha => c.pure (h a ha)

theorem fault {α : Type} {P : α → Prop} (f : Fault) :
    c.rel P (Run.fault f : Run α) (Run.fault f) :=
  c.fail ⟨.fault f, rfl⟩

theorem ofOutcome {α : Type} {P : α → Prop} {o : Outcome α} (h : ∀ a, o = .ok a → P a) :
    c.rel P (Run.ofOutcome o) (Run.ofOutcome o) := by
  cases o with
  | ok a => exact c.pure (h a rfl)
  | error f => exact c.fail f

theorem valueOf (name : String) : c.gives (Run.valueOf name) (Run.valueOf name) := by
  refine c.bind (c.lookup? name) fun v? hv => ?_
  split
  · exact c.pure (hv _ rfl)
  · split
    · exact c.pure c.sound.undefined
    · exact c.pure (c.sound.number _)
    · exact c.pure (c.sound.number _)
    · exact c.fault _

theorem itemsOf {v : Value} (hv : c.cap.within v = true) :
    c.givesAll (Interp.itemsOf v) (Interp.itemsOf v) := by
  unfold Interp.itemsOf
  split
  · rename_i items hitems
    exact c.pure (c.sound.within_items hv hitems)
  · exact c.fault _

theorem isMath (e : Expr) : c.does (Interp.isMath e) (Interp.isMath e) := by
  unfold Interp.isMath
  split
  · exact c.bind (c.lookup? _) fun _ _ => c.pure trivial
  · exact c.pure trivial

theorem namespaceOf? (e : Expr) : c.does (Interp.namespaceOf? e) (Interp.namespaceOf? e) := by
  unfold Interp.namespaceOf?
  split
  · exact c.bind (c.lookup? _) fun _ _ => by split <;> exact c.pure trivial
  · exact c.pure trivial

theorem callback (args : List Value) : c.does (Interp.callback args) (Interp.callback args) := by
  unfold Interp.callback
  split
  · exact c.pure trivial
  · exact c.fault _

theorem hoist : ∀ body, c.does (Interp.hoist body) (Interp.hoist body) := by
  intro body
  fun_induction Interp.hoist body with
  | case1 => exact c.pure trivial
  | case2 name params body r ih =>
    exact c.bind (c.newFunction _ _) fun f hf => c.bind (c.setVar _ _ hf) fun _ _ => ih
  | case3 s r _ ih => exact ih

end

/-! ### Runs that follow one another -/

/-- A relation between runs that is kept where one run follows another. -/
structure Sequential where
  rel : {α : Type} → Run α → Run α → Prop
  pure {α : Type} (a : α) : rel (Pure.pure a) (Pure.pure a)
  throw {α : Type} (e : Failure) : rel (MonadExcept.throw e : Run α) (MonadExcept.throw e)
  tick : rel Run.tick Run.tick
  bind {α β : Type} {m m' : Run α} {f f' : α → Run β} :
    rel m m' → (∀ a, Given m a → rel (f a) (f' a)) → rel (m >>= f) (m' >>= f')

namespace Sequential

variable (r : Sequential) {α : Type}

/-- Each round follows the one before it. -/
theorem go {round round' : Run (Option α)} (h : r.rel round round') :
    ∀ n, r.rel (repeatedly.go round n) (repeatedly.go round' n) := by
  intro n
  induction n with
  | zero => exact r.throw _
  | succ n ih =>
    refine r.bind r.tick fun _ _ => r.bind h fun a? _ => ?_
    cases a? with
    | some a => exact r.pure a
    | none => exact ih

/-- A handler follows the failure that it takes care of. -/
theorem handled {body body' : Run α} {prepare prepare' : Cause → Run Unit}
    {handler handler' : Cause → Run α} (hbody : r.rel (observe body) (observe body'))
    (hprepare : ∀ f, r.rel (prepare f) (prepare' f))
    (hhandler : ∀ f, r.rel (observe (handler f)) (observe (handler' f))) :
    r.rel (Run.handled body prepare handler) (Run.handled body' prepare' handler') := by
  refine r.bind hbody fun o _ => ?_
  cases o with
  | ok a => exact r.pure _
  | error f =>
    dsimp only
    split
    · exact r.bind (hprepare _) fun _ _ => hhandler _
    · exact r.pure _

/-- What is done at last follows what has been done, and gives its outcome if it has none. -/
theorem finish {last last' : Run (Option α)} (h : r.rel last last') (o : Except Failure α) :
    r.rel (Run.finish last o) (Run.finish last' o) := by
  refine r.bind h fun a? _ => ?_
  cases a? with
  | some a => exact r.pure a
  | none =>
    cases o with
    | ok a => exact r.pure a
    | error e => exact r.throw e

end Sequential

/-! ### Relations without a cap -/

/-- A relation between runs that is kept by the ways in which runs are put together, whatever
values they give. -/
structure Plain where
  rel : {α : Type} → Run α → Run α → Prop
  pure {α : Type} (a : α) : rel (Pure.pure a) (Pure.pure a)
  bind {α β : Type} {m m' : Run α} {f f' : α → Run β} :
    rel m m' → (∀ a, Given m a → rel (f a) (f' a)) → rel (m >>= f) (m' >>= f')
  fail {α : Type} (f : Cause) : rel (throw f.val : Run α) (throw f.val)
  exhausted {α : Type} : rel (throw .exhausted : Run α) (throw .exhausted)
  tick : rel Run.tick Run.tick
  lookup? (name : String) : rel (Run.lookup? name) (Run.lookup? name)
  setVar (declare : Bool) (name : String) (v : Value) :
    rel (Run.setVar declare name v) (Run.setVar declare name v)
  newFunction (params : List Binding) (body : Body) :
    rel (Run.newFunction params body) (Run.newFunction params body)
  sessionValue (key : String) : rel (Run.sessionValue key) (Run.sessionValue key)
  inCall {α : Type} {m m' : Run α} : rel m m' → rel (Run.inCall m) (Run.inCall m')
  repeatedly {α : Type} {round round' : Run (Option α)} :
    rel round round' → rel (Run.repeatedly round) (Run.repeatedly round')
  attempt {α : Type} {body body' : Run α} {prepare prepare' : Cause → Run Unit}
    {handler handler' : Cause → Run α} {last last' : Run (Option α)} :
    rel body body' → (∀ f, rel (prepare f) (prepare' f)) → (∀ f, rel (handler f) (handler' f)) →
      rel last last' → Idle last last' →
      rel (Run.attempt body prepare handler last) (Run.attempt body' prepare' handler' last')

/-- The relation, with what is known of what the first run can give. -/
def Plain.congruence (p : Plain) : Congruence where
  cap := .free
  sound := .free
  rel P m m' := p.rel m m' ∧ ∀ a, Given m a → P a
  pure ha := ⟨p.pure _, fun _ h => h.pure ▸ ha⟩
  bind hm hf := by
    refine ⟨p.bind hm.1 fun a ha => (hf a (hm.2 a ha)).1, fun b hb => ?_⟩
    obtain ⟨a, ha, hb⟩ := hb.bind
    exact (hf a (hm.2 a ha)).2 b hb
  fail f := ⟨p.fail f, fun _ h => h.throw.elim⟩
  exhausted := ⟨p.exhausted, fun _ h => h.throw.elim⟩
  tick := ⟨p.tick, fun _ _ => trivial⟩
  lookup? name := ⟨p.lookup? name, fun _ _ v _ => Cap.within_free v⟩
  setVar declare name v _ := ⟨p.setVar declare name v, fun _ _ => trivial⟩
  newFunction params body := ⟨p.newFunction params body, fun v _ => Cap.within_free v⟩
  sessionValue key := ⟨p.sessionValue key, fun _ _ => trivial⟩
  inCall hm := ⟨p.inCall hm.1, fun a h => hm.2 a h.inCall⟩
  repeatedly hround := ⟨p.repeatedly hround.1, fun a h => hround.2 _ h.repeatedly a rfl⟩
  attempt hbody hprepare hhandler hlast hidle := by
    refine ⟨p.attempt hbody.1 (fun f => (hprepare f).1) (fun f => (hhandler f).1) hlast.1 hidle,
      fun a h => ?_⟩
    rcases h.attempt with h | ⟨f, h⟩ | h
    · exact hbody.2 a h
    · exact (hhandler f).2 a h
    · exact hlast.2 _ h a rfl

end Congruence

end Scrape.Script
