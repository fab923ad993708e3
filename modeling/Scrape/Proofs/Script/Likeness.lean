import Mathlib.Data.List.Forall2
import Scrape.Proofs.Script.Run

/-!
# Script — Likeness

Runs that do the same where not all that they deal with is the same on both sides.  A likeness
(`Likeness`) says which names of variables stand for each other, and which values and failures count
as the same.  A run sees a variable by its name only, and only the innermost of a name; so the scopes
on both sides need not be of one shape.  They are alike (`ScopesAlike`) if the variables that are
visible are, and so they are again after a call has made a scope of its own on top of them, and has
left it.

Runs are alike (`RunAlike`) if from states that are alike they end alike, in states that are alike
again.  The ways in which runs are put together keep this.
-/

namespace Scrape.Script

open Run

/-! ### Options and outcomes -/

section Options

variable {α β : Type} {R : α → β → Prop}

theorem rel_getD {a? : Option α} {b? : Option β} (h : Option.Rel R a? b?) {a : α} {b : β}
    (hab : R a b) : R (a?.getD a) (b?.getD b) := by
  cases h with
  | none => exact hab
  | some h => exact h

/-- Either nothing is there on either side, or something on both. -/
theorem exists_of_rel {a? : Option α} {b? : Option β} (h : Option.Rel R a? b?) :
    (a? = none ∧ b? = none) ∨ ∃ a b, a? = some a ∧ b? = some b ∧ R a b := by
  cases h with
  | none => exact .inl ⟨rfl, rfl⟩
  | some hab => exact .inr ⟨_, _, rfl, rfl, hab⟩

theorem rel_isSome {a? : Option α} {b? : Option β} (h : Option.Rel R a? b?) :
    a?.isSome = b?.isSome := by
  cases h <;> rfl

theorem rel_isNone {a? : Option α} {b? : Option β} (h : Option.Rel R a? b?) :
    a?.isNone = b?.isNone := by
  cases h <;> rfl

theorem rel_eq_iff {a? b? : Option α} : Option.Rel Eq a? b? ↔ a? = b? := by
  constructor
  · intro h
    cases h with
    | none => rfl
    | some h => rw [h]
  · rintro rfl
    cases a? with
    | none => exact .none
    | some a => exact .some rfl

end Options

/-- How something ends on both sides: well with related values, or not for related reasons. -/
inductive EndsAlike {ε α : Type} (E : ε → ε → Prop) (P : α → α → Prop) :
    Except ε α → Except ε α → Prop
  | ok {a a' : α} : P a a' → EndsAlike E P (.ok a) (.ok a')
  | error {e e' : ε} : E e e' → EndsAlike E P (.error e) (.error e')

theorem EndsAlike.eq {ε α : Type} {o o' : Except ε α} (h : EndsAlike Eq Eq o o') : o = o' := by
  cases h with
  | ok ha => rw [ha]
  | error he => rw [he]

theorem EndsAlike.imp {ε α : Type} {E : ε → ε → Prop} {P Q : α → α → Prop} {o o' : Except ε α}
    (h : EndsAlike E P o o') (hPQ : ∀ a a', P a a' → Q a a') : EndsAlike E Q o o' := by
  cases h with
  | ok ha => exact .ok (hPQ _ _ ha)
  | error he => exact .error he

theorem EndsAlike.mapError {ε δ α : Type} {E : ε → ε → Prop} {F : δ → δ → Prop} {P : α → α → Prop}
    {o o' : Except ε α} (h : EndsAlike E P o o') {f : ε → δ} (hf : ∀ e e', E e e' → F (f e) (f e')) :
    EndsAlike F P (o.mapError f) (o'.mapError f) := by
  cases h with
  | ok ha => exact .ok ha
  | error he => exact .error (hf _ _ he)

/-! ### Likeness -/

/-- What counts as the same on both sides: names of variables, of which none stands for two, values,
and failures, which a script can take care of on both sides or on none. -/
structure Likeness where
  names : String → String → Prop
  injective {a b c : String} : names a c → names b c → a = b
  unique {a b c : String} : names a b → names a c → b = c
  value : Value → Value → Prop
  failure : Failure → Failure → Prop
  failure_refl (f : Failure) : failure f f
  isCatchable_eq {f f' : Failure} : failure f f' → f.isCatchable = f'.isCatchable

/-- Only what is the same counts as such. -/
def Likeness.same : Likeness where
  names := Eq
  injective h h' := h.trans h'.symm
  unique h h' := h.symm.trans h'
  value := Eq
  failure := Eq
  failure_refl _ := rfl
  isCatchable_eq h := congrArg Failure.isCatchable h

variable (l : Likeness)

/-! ### Scopes -/

/-- The variables on both sides are alike. -/
def VariablesAlike (value? value'? : String → Option Value) : Prop :=
  ∀ a b, l.names a b → Option.Rel l.value (value? a) (value'? b)

/-- The variables that the scopes show on both sides are alike; and so are those of each of the
innermost scopes, as many as are counted, and what is below them. -/
inductive ScopesAlike : Nat → List Scope → List Scope → Prop
  | base {scopes scopes' : List Scope} : scopes ≠ [] → scopes' ≠ [] →
      VariablesAlike l (visible? scopes) (visible? scopes') → ScopesAlike 0 scopes scopes'
  | inner {n : Nat} {scope scope' : Scope} {scopes scopes' : List Scope} :
      VariablesAlike l (Keyed.get? · scope) (Keyed.get? · scope') →
      ScopesAlike n scopes scopes' → ScopesAlike (n + 1) (scope :: scopes) (scope' :: scopes')

variable {l}

namespace VariablesAlike

variable {value? value'? next? next'? : String → Option Value}

/-- Variables of which one is set on both sides. -/
theorem set (h : VariablesAlike l value? value'?) {a b : String} (hab : l.names a b)
    {v v' : Value} (hv : l.value v v')
    (hnext : ∀ c, next? c = if a = c then some v else value? c)
    (hnext' : ∀ c, next'? c = if b = c then some v' else value'? c) :
    VariablesAlike l next? next'? := by
  intro c d hcd
  rw [hnext, hnext']
  by_cases hac : a = c
  · obtain rfl := hac
    obtain rfl := l.unique hab hcd
    rw [if_pos rfl, if_pos rfl]
    exact .some hv
  · -- another name stands for another one, as none stands for two
    have hbd : b ≠ d := fun hbd => hac (l.injective hab (hbd ▸ hcd))
    rw [if_neg hac, if_neg hbd]
    exact h c d hcd

/-- Variables of which one is set that is left out on both sides. -/
theorem set_of_leavesOut (h : VariablesAlike l value? value'?) {a b : String}
    (ha : ∀ c, ¬ l.names a c) (hb : ∀ c, ¬ l.names c b) {v v' : Value}
    (hnext : ∀ c, next? c = if a = c then some v else value? c)
    (hnext' : ∀ c, next'? c = if b = c then some v' else value'? c) :
    VariablesAlike l next? next'? := by
  intro c d hcd
  have hac : a ≠ c := fun heq => ha d (heq.symm ▸ hcd)
  have hbd : b ≠ d := fun heq => hb c (heq.symm ▸ hcd)
  rw [hnext, hnext', if_neg hac, if_neg hbd]
  exact h c d hcd

/-- Variables of which some are hidden by others. -/
theorem or {outer? outer'? : String → Option Value} (h : VariablesAlike l value? value'?)
    (houter : VariablesAlike l outer? outer'?) :
    VariablesAlike l (fun a => (value? a).or (outer? a)) fun a => (value'? a).or (outer'? a) := by
  intro a b hab
  obtain ⟨ha, hb⟩ | ⟨v, v', ha, hb, hv⟩ := exists_of_rel (h a b hab)
  · simp only [ha, hb, Option.none_or]
    exact houter a b hab
  · simp only [ha, hb, Option.some_or]
    exact .some hv

end VariablesAlike

namespace ScopesAlike

variable {n : Nat} {scopes scopes' : List Scope}

theorem ne_nil (h : ScopesAlike l n scopes scopes') : scopes ≠ [] ∧ scopes' ≠ [] := by
  cases h with
  | base hne hne' _ => exact ⟨hne, hne'⟩
  | inner => exact ⟨List.cons_ne_nil _ _, List.cons_ne_nil _ _⟩

theorem tail (h : ScopesAlike l (n + 1) scopes scopes') :
    ScopesAlike l n scopes.tail scopes'.tail := by
  cases h with
  | inner _ hr => exact hr

theorem visible (h : ScopesAlike l n scopes scopes') :
    VariablesAlike l (visible? scopes) (visible? scopes') := by
  induction h with
  | base _ _ h => exact h
  | inner hscope _ ih =>
    intro a b hab
    rw [visible?_cons, visible?_cons]
    exact hscope.or ih a b hab

/-- The scopes with a variable set where it is found. -/
theorem setIn (h : ScopesAlike l n scopes scopes') {a b : String} (hab : l.names a b)
    {v v' : Value} (hv : l.value v v') :
    ScopesAlike l n (State.setIn a v scopes) (State.setIn b v' scopes') := by
  induction h with
  | base hne hne' h =>
    exact .base (setIn_ne_nil hne a v) (setIn_ne_nil hne' b v')
      (h.set hab hv (visible?_setIn hne a v) (visible?_setIn hne' b v'))
  | inner hscope hr ih =>
    obtain ⟨hne, hne'⟩ := hr.ne_nil
    -- of the scopes that are counted, the same ones have the variable on both sides
    have hhas : Keyed.has a _ = Keyed.has b _ := rel_isSome (hscope a b hab)
    rw [State.setIn, State.setIn, hhas]
    · split
      · exact .inner (hscope.set hab hv (Keyed.get?_put a v _) (Keyed.get?_put b v' _)) hr
      · exact .inner hscope ih
    · exact fun h => hne' h
    · exact fun h => hne h

end ScopesAlike

/-! ### States -/

variable (l) in
/-- The variables of both states are alike, and all that is no variable is the same. -/
structure StateAlike (n : Nat) (s s' : State) : Prop where
  scopes : ScopesAlike l n s.scopes s'.scopes
  session : s.session = s'.session
  steps : s.steps = s'.steps
  limit : s.limit = s'.limit
  depth : s.depth = s'.depth
  functions : s.functions = s'.functions

namespace StateAlike

variable {n : Nat} {s s' : State}

theorem lookup? (h : StateAlike l n s s') {a b : String} (hab : l.names a b) :
    Option.Rel l.value (s.lookup? a) (s'.lookup? b) :=
  h.scopes.visible a b hab

theorem setVar (h : StateAlike l n s s') {a b : String} (hab : l.names a b) {v v' : Value}
    (hv : l.value v v') : StateAlike l n (s.setVar a v) (s'.setVar b v') :=
  { h with scopes := h.scopes.setIn hab hv }

/-- The states after one variable has been put into the innermost scope, which is done alike to all
variables that are seen there. -/
theorem declare_of_set (h : StateAlike l n s s') {a b : String} {v v' : Value}
    (hset : ∀ {value? value'? next? next'? : String → Option Value},
      VariablesAlike l value? value'? → (∀ c, next? c = if a = c then some v else value? c) →
      (∀ c, next'? c = if b = c then some v' else value'? c) → VariablesAlike l next? next'?) :
    StateAlike l n (s.declare a v) (s'.declare b v') := by
  obtain ⟨session, scopes, steps, limit, depth, functions⟩ := s
  obtain ⟨session', scopes', steps', limit', depth', functions'⟩ := s'
  obtain ⟨hscopes, hsession, hsteps, hlimit, hdepth, hfunctions⟩ := h
  cases hscopes with
  -- the innermost scope is one of those that are only seen together, or it is counted
  | base hne hne' hvisible =>
    obtain ⟨scope, scopes, rfl⟩ := List.exists_cons_of_ne_nil hne
    obtain ⟨scope', scopes', rfl⟩ := List.exists_cons_of_ne_nil hne'
    refine ⟨.base (List.cons_ne_nil _ _) (List.cons_ne_nil _ _) ?_, hsession, hsteps, hlimit,
      hdepth, hfunctions⟩
    exact hset hvisible (visible?_put scope scopes a v) (visible?_put scope' scopes' b v')
  | inner hscope hr =>
    refine ⟨.inner ?_ hr, hsession, hsteps, hlimit, hdepth, hfunctions⟩
    exact hset hscope (Keyed.get?_put a v _) (Keyed.get?_put b v' _)

theorem declare (h : StateAlike l n s s') {a b : String} (hab : l.names a b) {v v' : Value}
    (hv : l.value v v') : StateAlike l n (s.declare a v) (s'.declare b v') :=
  h.declare_of_set fun hvalue => hvalue.set hab hv

theorem declare_of_leavesOut (h : StateAlike l n s s') {a b : String} (ha : ∀ c, ¬ l.names a c)
    (hb : ∀ c, ¬ l.names c b) (v v' : Value) : StateAlike l n (s.declare a v) (s'.declare b v') :=
  h.declare_of_set fun hvalue => hvalue.set_of_leavesOut ha hb

theorem enter (h : StateAlike l n s s') : StateAlike l (n + 1) s.enter s'.enter :=
  { h with
    scopes := .inner (fun _ _ _ => .none) h.scopes
    depth := congrArg (· + 1) h.depth }

theorem leave (h : StateAlike l (n + 1) s s') : StateAlike l n s.leave s'.leave := by
  refine { h with scopes := ?_, depth := congrArg (· - 1) h.depth }
  exact h.scopes.tail

end StateAlike

/-! ### Runs -/

variable (l) in
/-- From states that are alike both runs end alike, in states that are. -/
def RunAlike {α : Type} (P : α → α → Prop) (m m' : Run α) : Prop :=
  ∀ ⦃n s s'⦄, StateAlike l n s s' →
    EndsAlike l.failure P (m.run s).1 (m'.run s').1 ∧ StateAlike l n (m.run s).2 (m'.run s').2

namespace RunAlike

variable {α β : Type} {P : α → α → Prop} {Q : β → β → Prop}

theorem pure {a a' : α} (h : P a a') : RunAlike l P (Pure.pure a) (Pure.pure a') :=
  fun _ _ _ hs => ⟨.ok h, hs⟩

theorem throw {f f' : Failure} (h : l.failure f f') :
    RunAlike l P (throw f : Run α) (throw f') :=
  fun _ _ _ hs => ⟨.error h, hs⟩

/-- What follows has to be alike only for what the first run can give. -/
theorem bind_of_given {m m' : Run α} {f f' : α → Run β} (hm : RunAlike l P m m')
    (hf : ∀ a a', Given m a → P a a' → RunAlike l Q (f a) (f' a')) :
    RunAlike l Q (m >>= f) (m' >>= f') := by
  intro n s s' hs
  obtain ⟨ho, ht⟩ := hm hs
  rw [run_bind_eq, run_bind_eq]
  cases hrun : m.run s with
  | mk o t =>
    cases hrun' : m'.run s' with
    | mk o' t' =>
      rw [hrun, hrun'] at ho ht
      cases ho with
      | ok ha => exact hf _ _ ⟨s, t, hrun⟩ ha ht
      | error he => exact ⟨.error he, ht⟩

theorem bind {m m' : Run α} {f f' : α → Run β} (hm : RunAlike l P m m')
    (hf : ∀ a a', P a a' → RunAlike l Q (f a) (f' a')) : RunAlike l Q (m >>= f) (m' >>= f') :=
  hm.bind_of_given fun a a' _ => hf a a'

theorem imp {m m' : Run α} (hm : RunAlike l P m m') {Q : α → α → Prop}
    (h : ∀ a a', P a a' → Q a a') : RunAlike l Q m m' := by
  intro n s s' hs
  obtain ⟨ho, ht⟩ := hm hs
  exact ⟨ho.imp h, ht⟩

theorem map {m m' : Run α} {f f' : α → β} (hm : RunAlike l P m m')
    (hf : ∀ a a', P a a' → Q (f a) (f' a')) : RunAlike l Q (f <$> m) (f' <$> m') := by
  rw [map_eq_pure_bind, map_eq_pure_bind]
  exact hm.bind fun a a' ha => pure (hf a a' ha)

theorem fault (f : Fault) : RunAlike l P (Run.fault f : Run α) (Run.fault f) :=
  throw (l.failure_refl _)

theorem ofOutcome {o o' : Outcome α}
    (h : EndsAlike (fun f f' : Cause => l.failure f.val f'.val) P o o') :
    RunAlike l P (Run.ofOutcome o) (Run.ofOutcome o') := by
  cases h with
  | ok ha => exact pure ha
  | error he => exact throw he

/-- What changes the state only. -/
theorem modify {f f' : State → State}
    (h : ∀ ⦃n s s'⦄, StateAlike l n s s' → StateAlike l n (f s) (f' s')) :
    RunAlike l (fun _ _ => True) (modify f : Run Unit) (modify f') :=
  fun _ _ _ hs => ⟨.ok trivial, h hs⟩

theorem tick : RunAlike l (fun _ _ => True) Run.tick Run.tick := by
  intro n s s' hs
  have hstepped : StateAlike l n (stepped s) (stepped s') :=
    { hs with steps := congrArg (· + 1) hs.steps }
  rcases Nat.lt_or_ge s.steps s.limit with hlt | hge
  · rw [run_tick_of_lt hlt, run_tick_of_lt (hs.steps ▸ hs.limit ▸ hlt)]
    exact ⟨.ok trivial, hstepped⟩
  · rw [run_tick_of_le hge, run_tick_of_le (hs.steps ▸ hs.limit ▸ hge)]
    exact ⟨.error (l.failure_refl _), hstepped⟩

/-! ### Variables -/

theorem lookup? {a b : String} (hab : l.names a b) :
    RunAlike l (Option.Rel l.value) (Run.lookup? a) (Run.lookup? b) :=
  fun _ _ _ hs => ⟨.ok (hs.lookup? hab), hs⟩

theorem setVar (declare : Bool) {a b : String} (hab : l.names a b) {v v' : Value}
    (hv : l.value v v') :
    RunAlike l (fun _ _ => True) (Run.setVar declare a v) (Run.setVar declare b v') := by
  refine modify fun n s s' hs => ?_
  split
  · exact hs.declare hab hv
  · exact hs.setVar hab hv

/-- A variable that is left out on both sides may hold anything. -/
theorem setVar_of_leavesOut {a b : String} (ha : ∀ c, ¬ l.names a c) (hb : ∀ c, ¬ l.names c b)
    (v v' : Value) :
    RunAlike l (fun _ _ => True) (Run.setVar true a v) (Run.setVar true b v') :=
  modify fun _ _ _ hs => hs.declare_of_leavesOut ha hb v v'

/-! ### The session -/

theorem sessionValue (key : String) :
    RunAlike l Eq (Run.sessionValue key) (Run.sessionValue key) :=
  fun _ _ _ hs => ⟨.ok (by rw [hs.session]), hs⟩

/-! ### Calls -/

theorem inScope {m m' : Run α} (hm : RunAlike l P m m') :
    RunAlike l P (Run.inScope m) (Run.inScope m') := by
  intro n s s' hs
  rcases Nat.lt_or_ge s.depth maxCallDepth with hlt | hge
  · have hrun {s : State} (hlt : s.depth < maxCallDepth) (m : Run α) : (Run.inScope m).run s =
        ((m.run s.enter).1, (m.run s.enter).2.leave) := run_inScope_of_lt hlt rfl
    rw [hrun hlt, hrun (hs.depth ▸ hlt)]
    obtain ⟨ho, ht⟩ := hm hs.enter
    exact ⟨ho, ht.leave⟩
  · rw [run_inScope_of_le hge, run_inScope_of_le (hs.depth ▸ hge)]
    exact ⟨.error (l.failure_refl _), hs⟩

theorem inCall {m m' : Run α} (hm : RunAlike l P m m') :
    RunAlike l P (Run.inCall m) (Run.inCall m') :=
  tick.bind fun _ _ _ => hm.inScope

/-! ### Rounds -/

theorem go {round round' : Run (Option α)} (hround : RunAlike l (Option.Rel P) round round') :
    ∀ rounds, RunAlike l P (repeatedly.go round rounds) (repeatedly.go round' rounds)
  | 0          => throw (l.failure_refl _)
  | rounds + 1 => tick.bind fun _ _ _ => hround.bind fun a? a'? ha => by
    cases ha with
    | some ha => exact pure ha
    | none => exact go hround rounds

theorem repeatedly {round round' : Run (Option α)}
    (hround : RunAlike l (Option.Rel P) round round') :
    RunAlike l P (Run.repeatedly round) (Run.repeatedly round') := by
  intro n s s' hs
  -- the bound on the rounds is taken from the state
  have hleft : s.stepsLeft = s'.stepsLeft := by rw [State.stepsLeft, hs.limit, hs.steps]; rfl
  have hrun (round : Run (Option α)) (s : State) : (Run.repeatedly round).run s =
      (repeatedly.go round (s.stepsLeft + 1)).run s := rfl
  rw [hrun, hrun, ← hleft]
  exact go hround _ hs

/-! ### Failures that are taken care of -/

theorem observe {m m' : Run α} (hm : RunAlike l P m m') :
    RunAlike l (EndsAlike (l.failure) P) (Run.observe m) (Run.observe m') :=
  fun _ _ _ hs => ⟨.ok (hm hs).1, (hm hs).2⟩

theorem handled {m m' : Run α} {prepare prepare' : Cause → Run Unit}
    {handler handler' : Cause → Run α} (hm : RunAlike l P m m')
    (hprepare : ∀ f f' : Cause, l.failure f.val f'.val →
      RunAlike l (fun _ _ => True) (prepare f) (prepare' f'))
    (hhandler : ∀ f f' : Cause, l.failure f.val f'.val →
      RunAlike l P (handler f) (handler' f')) :
    RunAlike l (EndsAlike (l.failure) P) (Run.handled m prepare handler)
      (Run.handled m' prepare' handler') := by
  refine hm.observe.bind fun o o' ho => ?_
  cases ho with
  | ok ha => exact pure (.ok ha)
  | @error f f' he =>
    by_cases hf : f.isCatchable = true
    · have hf' : f'.isCatchable = true := (l.isCatchable_eq he) ▸ hf
      simp only [dif_pos hf, dif_pos hf']
      exact (hprepare ⟨f, hf⟩ ⟨f', hf'⟩ he).bind fun _ _ _ => (hhandler ⟨f, hf⟩ ⟨f', hf'⟩ he).observe
    · have hf' : ¬ f'.isCatchable = true := (l.isCatchable_eq he) ▸ hf
      simp only [dif_neg hf, dif_neg hf']
      exact pure (.error he)

theorem finish {last last' : Run (Option α)} (hlast : RunAlike l (Option.Rel P) last last')
    {o o' : Except Failure α} (ho : EndsAlike (l.failure) P o o') :
    RunAlike l P (Run.finish last o) (Run.finish last' o') := by
  refine hlast.bind fun a? a'? ha => ?_
  cases ha with
  | some ha => exact pure ha
  | none =>
    cases ho with
    | ok ha => exact pure ha
    | error he => exact throw he

theorem attempt {m m' : Run α} {prepare prepare' : Cause → Run Unit}
    {handler handler' : Cause → Run α} {last last' : Run (Option α)} (hm : RunAlike l P m m')
    (hprepare : ∀ f f' : Cause, l.failure f.val f'.val →
      RunAlike l (fun _ _ => True) (prepare f) (prepare' f'))
    (hhandler : ∀ f f' : Cause, l.failure f.val f'.val →
      RunAlike l P (handler f) (handler' f'))
    (hlast : RunAlike l (Option.Rel P) last last') :
    RunAlike l P (Run.attempt m prepare handler last)
      (Run.attempt m' prepare' handler' last') :=
  (hm.handled hprepare hhandler).bind fun _ _ ho => hlast.finish ho

end RunAlike

end Scrape.Script
