import Scrape.Proofs.Script.Alike

/-!
# Script — Watched

A machine that is watched runs scripts as usual, but ends the run for good as soon as a value is
beyond a cap: the value of an expression that the watch looks at, or one that a pattern is bound to
or that is assigned to a place.  A run keeps to the cap if it is never ended so.

Main statement (`runWatched_eq`): where a script comes to no value beyond the cap but in the forms
and calls that the cap names, a watch on these and one on all expressions and variables see the
same.
-/

namespace Scrape.Script

open Run

/-! ### Machines that are watched -/

/-- Ends a run for good: no step is left for what is done in any case. -/
def Run.halt : Run Unit := do
  modify (State.withLimit 0)
  throw .stepLimit

/-- Goes on if something holds, and ends the run if not. -/
def Run.insist (holds : Bool) : Run Unit := if holds then pure () else halt

/-- Whether the value of an expression is let through, in the state that it leaves. -/
abbrev Watch := Expr → Value → State → Bool

namespace Cap

variable (cap : Cap)

/-- Whether the values of all variables are within the cap. -/
def stateWithin (s : State) : Bool := s.scopes.all cap.fieldsWithin

/-- The watch on every expression: its value and the variables have to be within the cap. -/
def everywhere : Watch := fun _ v s => cap.within v && cap.stateWithin s

/-- The watch on the expressions of which the cap says that their values can be beyond it. -/
def loosely : Watch := fun e v _ => !cap.loose e || cap.within v

/-- The value of an expression, if the watch lets it through. -/
def inspect (watch : Watch) (e : Expr) (v : Value) : Run Value := do
  insist (watch e v (← get))
  return v

/-- The meaning of parts that nest at most `n` deep, watched. -/
def watched (watch : Watch) : Nat → Interp
  | 0     => interp put 0
  | n + 1 =>
    { eval := fun e => do inspect watch e (← (watched watch n).evalBody e)
      exec := fun s => (watched watch n).execBody s
      bind := fun declare b v => do
        insist (cap.within v)
        (watched watch n).bindBody declare b v
      assign := fun e v => do
        insist (cap.within v)
        (watched watch n).assignBody e v
      call := fun params body args => (watched watch n).callBody params body args
      put := put }

/-- Runs a script as usual, but watched. -/
def runWatched (watch : Watch) (source : List Char) (result : Value) (baseUrl? : Option String)
    (session : Session) (limit : Nat) : Except EvalError Value × State :=
  let start := State.initial result baseUrl? session limit
  match parse source with
  | .error e => (.error (.parse e), start)
  | .ok body =>
    let machine := cap.watched watch (maxDepth source.length)
    let (outcome, state) := (machine.run body).run start
    (outcome.mapError .run, state)

/-- The watch lets through all that it looks at when a script is run: the run is never ended, and so
it keeps its limit of steps. -/
def Keeps (watch : Watch) (source : List Char) (result : Value) (baseUrl? : Option String)
    (session : Session) (limit : Nat) : Prop :=
  (cap.runWatched watch source result baseUrl? session limit).2.limit = limit

instance (watch : Watch) (source : List Char) (result : Value) (baseUrl? : Option String)
    (session : Session) (limit : Nat) :
    Decidable (cap.Keeps watch source result baseUrl? session limit) :=
  inferInstanceAs (Decidable (_ = _))

end Cap

/-! ### States with all variables within a cap -/

namespace Cap

variable {cap : Cap} {s : State}

theorem stateWithin_iff : cap.stateWithin s = true ↔
    ∀ scope ∈ s.scopes, ∀ f ∈ scope, cap.within f.2 = true := by
  simp only [stateWithin, List.all_eq_true, fieldsWithin_iff]

theorem within_lookup (h : cap.stateWithin s = true) (name : String) :
    ∀ v ∈ s.lookup? name, cap.within v = true := by
  intro v hv
  obtain ⟨scope, hscope, hget⟩ := List.exists_of_findSome?_eq_some hv
  exact stateWithin_iff.mp h scope hscope _ (Keyed.mem_of_get? hget)

theorem scopeWithin_put {scope : Scope} {name : String} {v : Value}
    (hscope : cap.fieldsWithin scope = true) (hv : cap.within v = true) :
    cap.fieldsWithin (Keyed.put name v scope) = true :=
  fieldsWithin_iff.mpr fun f hf => (Keyed.mem_put hf).elim (fun heq => heq ▸ hv)
    (fieldsWithin_iff.mp hscope f)

theorem stateWithin_declare (h : cap.stateWithin s = true) {v : Value} (hv : cap.within v = true)
    (name : String) : cap.stateWithin (s.declare name v) = true := by
  obtain ⟨_, scopes, _, _, _, _⟩ := s
  cases scopes with
  | nil => exact h
  | cons inner r =>
    obtain ⟨hinner, hr⟩ := Bool.and_eq_true_iff.mp h
    exact Bool.and_eq_true_iff.mpr ⟨scopeWithin_put hinner hv, hr⟩

theorem stateWithin_setVar (h : cap.stateWithin s = true) {v : Value} (hv : cap.within v = true)
    (name : String) : cap.stateWithin (s.setVar name v) = true := by
  obtain ⟨_, scopes, _, _, _, _⟩ := s
  change (State.setIn name v scopes).all cap.fieldsWithin = true
  change scopes.all cap.fieldsWithin = true at h
  fun_induction State.setIn name v scopes with
  | case1 => rfl
  | case2 outermost =>
    exact Bool.and_eq_true_iff.mpr ⟨scopeWithin_put (Bool.and_eq_true_iff.mp h).1 hv, rfl⟩
  | case3 scope r _ hhas =>
    obtain ⟨hscope, hr⟩ := Bool.and_eq_true_iff.mp h
    exact Bool.and_eq_true_iff.mpr ⟨scopeWithin_put hscope hv, hr⟩
  | case4 scope r _ hhas ih =>
    obtain ⟨hscope, hr⟩ := Bool.and_eq_true_iff.mp h
    exact Bool.and_eq_true_iff.mpr ⟨hscope, ih hr⟩

theorem stateWithin_leave (h : cap.stateWithin s = true) : cap.stateWithin s.leave = true :=
  stateWithin_iff.mpr fun scope hscope =>
    stateWithin_iff.mp h scope (List.mem_of_mem_tail hscope)

end Cap

/-! ### Runs that agree -/

variable {α β : Type}

/-- From a state with all variables within the cap, two runs do the same, what they give has a
property, and the variables stay within the cap. -/
def Agree (cap : Cap) (P : α → Prop) (m m' : Run α) : Prop :=
  ∀ ⦃s o t⦄, cap.stateWithin s = true → m.run s = (o, t) →
    m'.run s = (o, t) ∧ cap.stateWithin t = true ∧ ∀ a, o = .ok a → P a

namespace Agree

variable {cap : Cap} {P : α → Prop}

theorem lasts (cap : Cap) : Lasts fun s => cap.stateWithin s = true where
  stepped hs := hs
  enter hs := hs
  leave hs := Cap.stateWithin_leave hs

theorem setVar (declare : Bool) (name : String) {v : Value} (hv : cap.within v = true) :
    Agree cap (fun _ => True) (Run.setVar declare name v) (Run.setVar declare name v) := by
  refine Sustains.refl fun s o t hs hrun => ⟨?_, fun _ _ => trivial⟩
  cases hrun
  cases declare with
  | false => exact Cap.stateWithin_setVar hs hv name
  | true => exact Cap.stateWithin_declare hs hv name

/-- What comes after a run has to agree only if the run goes on. -/
theorem insist {holds holds' : Bool} (heq : holds = holds') {m m' : Run α}
    (h : holds = true → Agree cap P m m') :
    Agree cap P (do Run.insist holds; m) (do Run.insist holds'; m') := by
  subst heq
  cases holds with
  | true => exact fun s o t hs hrun => h rfl hs hrun
  | false =>
    intro s o t hs hrun
    cases hrun
    exact ⟨rfl, hs, nofun⟩

end Agree

/-- Agreeing, as a relation with a cap that every way of putting runs together keeps. -/
def agree {cap : Cap} (sound : cap.Sound) : Congruence where
  cap := cap
  sound := sound
  rel := Agree cap
  pure := Sustains.pure
  bind := Sustains.bind
  fail f := Sustains.throw f.val
  exhausted := @fun _ _ => Sustains.throw .exhausted
  tick := Sustains.tick (Agree.lasts cap)
  lookup? name := Sustains.refl fun _ _ _ hs hrun => by
    cases hrun
    exact ⟨hs, fun v? hv => by cases hv; exact Cap.within_lookup hs name⟩
  setVar declare name _ hv := Agree.setVar declare name hv
  newFunction params body := Sustains.refl fun _ _ _ hs hrun => by
    cases hrun
    exact ⟨hs, fun v hv => by cases hv; exact sound.function _ _ _⟩
  sessionValue key := Sustains.refl fun _ _ _ hs hrun => by
    cases hrun
    exact ⟨hs, fun _ _ => trivial⟩
  inCall h := Sustains.inCall (Agree.lasts cap) h
  repeatedly h := Sustains.repeatedly (Agree.lasts cap) h
  attempt hbody hprepare hhandler hlast _ := Sustains.attempt hbody hprepare hhandler hlast

/-! ### Watches that see the same -/

variable {cap : Cap}

/-- A watch that lets the value of an expression through if and only if it is within the cap, where
the variables are and the cap speaks the truth of the expression. -/
def Judges (cap : Cap) (watch : Watch) : Prop :=
  ∀ e v s, cap.stateWithin s = true → (cap.loose e = false → cap.within v = true) →
    watch e v s = cap.within v

theorem judges_everywhere : Judges cap cap.everywhere := by
  intro e v s hs _
  rw [Cap.everywhere, hs, Bool.and_true]

theorem judges_loosely : Judges cap cap.loosely := by
  intro e v s _ hv
  rw [Cap.loosely]
  cases hloose : cap.loose e with
  | true => rfl
  | false => rw [hv hloose]; rfl

theorem agree_inspect {watch watch' : Watch} (h : Judges cap watch) (h' : Judges cap watch')
    {e : Expr} {v : Value} (hv : cap.loose e = false → cap.within v = true) :
    Agree cap (fun v => cap.within v = true) (Cap.inspect watch e v) (Cap.inspect watch' e v) := by
  intro s o t hs hrun
  have hinsist : Agree cap (fun v => cap.within v = true) (do Run.insist (watch e v s); pure v)
      (do Run.insist (watch' e v s); pure v) :=
    Agree.insist ((h e v s hs hv).trans (h' e v s hs hv).symm)
      fun hpass => Sustains.pure ((h e v s hs hv).symm.trans hpass)
  exact hinsist hs hrun

theorem agree_put (key : String) (v : Value) :
    Agree cap (fun _ => True) (put key v) (put key v) :=
  Sustains.refl fun _ _ _ hs hrun => by
    cases hrun
    exact ⟨hs, fun _ _ => trivial⟩

/-- **Watches that judge alike** are alike to any depth. -/
theorem alike_watched (sound : cap.Sound) {watch watch' : Watch} (h : Judges cap watch)
    (h' : Judges cap watch') (depth : Nat) :
    (agree sound).Alike (cap.watched watch depth) (cap.watched watch' depth) := by
  induction depth with
  | zero => exact (agree sound).alike_zero agree_put
  | succ depth ih =>
    -- the body gives what the cap promises of the expression, and there the watches judge alike
    exact
      { eval := fun e => Sustains.bind (ih.evalBody e) fun _ hv => agree_inspect h h' hv
        exec := ih.execBody
        bind := fun declare b _ => Agree.insist rfl fun hv => ih.bindBody declare b hv
        assign := fun e _ => Agree.insist rfl fun hv => ih.assignBody e hv
        call := ih.callBody
        put := agree_put
        ticks := fun _ => ⟨_, _, rfl, rfl⟩ }

section

variable {source : List Char} {result : Value} {baseUrl? : Option String} {session : Session}
  {limit : Nat}

theorem runWatched_of_parse_error {e : ParseError} (hparse : parse source = .error e)
    (watch : Watch) : cap.runWatched watch source result baseUrl? session limit =
      (.error (.parse e), State.initial result baseUrl? session limit) := by
  rw [Cap.runWatched, hparse]

theorem runWatched_of_parse {watch : Watch} {body : List Stmt} {o : Except Failure Value}
    {t : State} (hparse : parse source = .ok body)
    (hrun : ((cap.watched watch (maxDepth source.length)).run body).run
      (State.initial result baseUrl? session limit) = (o, t)) :
    cap.runWatched watch source result baseUrl? session limit = (o.mapError .run, t) := by
  rw [Cap.runWatched, hparse]
  dsimp only
  rw [hrun]

theorem stateWithin_initial (sound : cap.Sound) (hresult : cap.within result = true)
    (hbase : ∀ url ∈ baseUrl?, cap.within (.string url) = true) :
    cap.stateWithin (State.initial result baseUrl? session limit) = true := by
  refine Cap.stateWithin_iff.mpr fun scope hscope f hf => ?_
  obtain rfl := List.mem_singleton.mp hscope
  rcases List.mem_pair.mp hf with rfl | rfl
  · exact hresult
  · cases baseUrl? with
    | none => exact sound.undefined
    | some url => exact hbase url rfl

/-- **Loose expressions are enough to watch**: a watch on them and one on all expressions and
variables see the same, where what a script is run on is within the cap. -/
theorem runWatched_eq (sound : cap.Sound) (hresult : cap.within result = true)
    (hbase : ∀ url ∈ baseUrl?, cap.within (.string url) = true) :
    cap.runWatched cap.everywhere source result baseUrl? session limit =
      cap.runWatched cap.loosely source result baseUrl? session limit := by
  cases hparse : parse source with
  | error e => rw [runWatched_of_parse_error hparse, runWatched_of_parse_error hparse]
  | ok body =>
    have halike := alike_watched sound judges_everywhere judges_loosely (maxDepth source.length)
    cases hrun : ((cap.watched cap.everywhere (maxDepth source.length)).run body).run
        (State.initial result baseUrl? session limit) with
    | mk o t =>
      have hsame := (halike.run body (stateWithin_initial sound hresult hbase) hrun).1
      rw [runWatched_of_parse hparse hrun, runWatched_of_parse hparse hsame]

theorem keeps_everywhere_iff (sound : cap.Sound) (hresult : cap.within result = true)
    (hbase : ∀ url ∈ baseUrl?, cap.within (.string url) = true) :
    cap.Keeps cap.everywhere source result baseUrl? session limit ↔
      cap.Keeps cap.loosely source result baseUrl? session limit := by
  rw [Cap.Keeps, Cap.Keeps, runWatched_eq sound hresult hbase]

end

end Scrape.Script
