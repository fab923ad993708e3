import Mathlib.Data.List.Induction
import Scrape.Proofs.Script.Run
import Scrape.Proofs.Script.Slot
import Scrape.Script.Evaluate

/-!
# Script — Member

Members of a variable at keys that are written out.  Reading one gives what stands at the path of
the keys (`run_eval_memberAt`).  An assignment to one takes the containers on the path out of the
variable, from the innermost on, sets a slot in each, and puts what that gives into the variable at
the very end; so it changes the variable as writing at the path does, or nothing at all
(`run_assign_memberAt`).

Main statement (`assignment_lens`): an assignment to a member of a variable either fails and changes
nothing, or the member has the value then, no other variable is changed, and all that does not stand
at the path of the member is as it was.
-/

namespace Scrape.Script

open Run

/-! ### Variables that differ -/

/-- The variable of a name in one of some scopes, counted from the innermost one. -/
def variableIn? (scopes : List Scope) (i : Nat) (name : String) : Option Value :=
  scopes[i]?.bind (Keyed.get? name)

/-- The scopes differ at most in the innermost variable of a name, which the first ones have. -/
def ScopesDifferAt (name : String) (scopes scopes' : List Scope) : Prop :=
  ∃ i, (variableIn? scopes i name).isSome ∧ (∀ j < i, variableIn? scopes j name = none) ∧
    ∀ j other, j ≠ i ∨ other ≠ name → variableIn? scopes' j other = variableIn? scopes j other

/-- The states differ at most in the innermost variable of a name, which the first one has. -/
def State.DiffersAt (name : String) (s t : State) : Prop :=
  t = { s with scopes := t.scopes } ∧ ScopesDifferAt name s.scopes t.scopes

variable {s t : State} {x : String} {root v : Value}

namespace ScopesDifferAt

theorem put {scope : Scope} (hscope : (Keyed.get? x scope).isSome) (v : Value)
    (outer : List Scope) : ScopesDifferAt x (scope :: outer) (Keyed.put x v scope :: outer) := by
  refine ⟨0, hscope, fun j hj => absurd hj (Nat.not_lt_zero j), fun j other hne => ?_⟩
  cases j with
  | zero => exact Keyed.get?_put_of_ne (fun heq => hne.elim (· rfl) (· heq.symm)) v scope
  | succ j => rfl

theorem cons {scope : Scope} {outer outer' : List Scope} (hnone : Keyed.get? x scope = none)
    (h : ScopesDifferAt x outer outer') : ScopesDifferAt x (scope :: outer) (scope :: outer') := by
  obtain ⟨i, hi, hbelow, hothers⟩ := h
  refine ⟨i + 1, hi, fun j hj => ?_, fun j other hne => ?_⟩
  · cases j with
    | zero => exact hnone
    | succ j => exact hbelow j (Nat.lt_of_succ_lt_succ hj)
  · cases j with
    | zero => rfl
    | succ j => exact hothers j other (hne.imp (fun h heq => h (congrArg _ heq)) id)

/-- Setting a variable where it is found changes one variable of one scope. -/
theorem setIn {scopes : List Scope} (hx : visible? scopes x = some root) (v : Value) :
    ScopesDifferAt x scopes (State.setIn x v scopes) := by
  fun_induction State.setIn x v scopes with
  | case1 => cases hx
  | case2 outermost =>
    rw [visible?_cons, visible?, List.findSome?_nil, Option.or_none] at hx
    exact put (Option.isSome_of_mem hx) v []
  | case3 scope outer _ hhas => exact put hhas v outer
  | case4 scope outer _ hhas ih =>
    have hnone : Keyed.get? x scope = none := by simpa [Keyed.has] using hhas
    rw [visible?_cons, hnone, Option.none_or] at hx
    exact cons hnone (ih hx)

end ScopesDifferAt

theorem differsAt_setVar (hx : s.lookup? x = some root) (v : Value) :
    s.DiffersAt x (s.setVar x v) :=
  ⟨rfl, .setIn hx v⟩

theorem scopes_ne_nil_of_lookup? (hx : s.lookup? x = some root) : s.scopes ≠ [] := by
  intro hnil
  rw [State.lookup?, hnil] at hx
  cases hx

theorem lookup?_setVar (hne : s.scopes ≠ []) (x : String) (v : Value) (other : String) :
    (s.setVar x v).lookup? other = if x = other then some v else s.lookup? other :=
  visible?_setIn hne x v other

theorem lookup?_setVar_self (hne : s.scopes ≠ []) (x : String) (v : Value) :
    (s.setVar x v).lookup? x = some v :=
  (lookup?_setVar hne x v x).trans (if_pos rfl)

/-! ### Members -/

/-- The member of a variable at some keys, one after the other. -/
def memberAt (x : String) (names : List Name) : Expr := names.foldl .member (.name x)

theorem memberAt_concat (x : String) (names : List Name) (name : Name) :
    memberAt x (names ++ [name]) = .member (memberAt x names) name := by
  rw [memberAt, List.foldl_append]
  rfl

theorem isPlace_memberAt (x : String) (names : List Name) : (memberAt x names).isPlace = true := by
  induction names using List.reverseRecOn with
  | nil => rfl
  | append_singleton names name ih =>
    rw [memberAt_concat]
    exact ih

/-- A member of a variable is none of the constants of mathematics. -/
theorem run_isMath_memberAt (hx : s.lookup? x = some root) (names : List Name) :
    (Interp.isMath (memberAt x names)).run s = (.ok false, s) := by
  induction names using List.reverseRecOn with
  | nil =>
    change (Except.ok (decide (x = "Math") && (s.lookup? x).isNone), s) = _
    rw [hx]
    simp
  | append_singleton names name _ =>
    rw [memberAt_concat]
    rfl

/-- A key that is written out: it has one text, and evaluating it does nothing. -/
structure ConstantKey where
  name : Name
  text : String
  run_memberKey (depth : Nat) (s : State) :
    ((interp put (depth + 1)).memberKey name).run s = (.ok text, s)

namespace ConstantKey

/-- A key after a point. -/
def ofName (s : String) : ConstantKey := ⟨.text s, s, fun _ _ => rfl⟩

/-- A string in brackets. -/
def ofString (s : String) : ConstantKey := ⟨.computed (.string s), s, fun _ _ => rfl⟩

/-- A number in brackets. -/
def ofNumber (x : Number) : ConstantKey :=
  ⟨.computed (.number x), String.ofList x.text, fun _ _ => rfl⟩

theorem run_memberKey_zero (key : ConstantKey) (s : State) :
    ∃ o, ((interp put 0).memberKey key.name).run s = (o, s) := by
  cases key.name <;> exact ⟨_, rfl⟩

end ConstantKey

/-- The names of some keys. -/
def keyNames (keys : List ConstantKey) : List Name := keys.map ConstantKey.name

/-- The texts of some keys. -/
def keyTexts (keys : List ConstantKey) : List String := keys.map ConstantKey.text

variable {keys : List ConstantKey} {depth : Nat}

theorem memberAt_keyNames_concat (x : String) (keys : List ConstantKey) (key : ConstantKey) :
    memberAt x (keyNames (keys ++ [key])) = .member (memberAt x (keyNames keys)) key.name := by
  rw [keyNames, List.map_append]
  exact memberAt_concat x _ _

theorem keyTexts_concat (keys : List ConstantKey) (key : ConstantKey) :
    keyTexts (keys ++ [key]) = keyTexts keys ++ [key.text] :=
  List.map_append

/-- A depth that is enough for some keys is more than enough without the last one. -/
theorem exists_depth_of_concat {key : ConstantKey} (h : (keys ++ [key]).length ≤ depth) :
    ∃ d, depth = d + 1 ∧ keys.length ≤ d := by
  rw [List.length_append, List.length_singleton] at h
  exact ⟨depth - 1, by omega, by omega⟩

/-! ### Reading and assigning -/

theorem run_valueOf (hx : s.lookup? x = some root) : (valueOf x).run s = (.ok root, s) := by
  have hlookup : (Run.lookup? x).run s = (.ok (some root), s) := by
    rw [← hx]
    rfl
  exact (run_bind_of_ok hlookup).trans rfl

/-- Reading a member gives what stands at its path, or fails where that goes through null or
undefined. -/
theorem run_eval_memberAt (hx : s.lookup? x = some root) (hdepth : keys.length ≤ depth) :
    ((interp put (depth + 1)).eval (memberAt x (keyNames keys))).run s =
      ((root.read (keyTexts keys)).mapError .fault, s) := by
  induction keys using List.reverseRecOn generalizing depth with
  | nil => exact run_valueOf hx
  | append_singleton keys key ih =>
    obtain ⟨d, rfl, hd⟩ := exists_depth_of_concat hdepth
    rw [memberAt_keyNames_concat, keyTexts_concat, Value.read_concat]
    have hobject := ih hd
    refine (run_bind_of_ok (run_isMath_memberAt hx _)).trans ?_
    cases hread : root.read (keyTexts keys) with
    | error f =>
      rw [hread] at hobject
      exact run_bind_of_error hobject _
    | ok container =>
      rw [hread] at hobject
      refine (run_bind_of_ok hobject).trans ((run_bind_of_ok (key.run_memberKey d s)).trans ?_)
      change _ = ((Value.read [key.text] container).mapError Failure.fault, s)
      rw [Value.read]
      split <;> rfl

/-- A machine that is not given enough depth fails to read a member. -/
theorem run_eval_memberAt_of_lt (hx : s.lookup? x = some root) (hdepth : depth < keys.length + 1) :
    ∃ f, ((interp put depth).eval (memberAt x (keyNames keys))).run s = (.error f, s) := by
  induction keys using List.reverseRecOn generalizing depth with
  | nil =>
    obtain rfl := Nat.lt_one_iff.mp hdepth
    exact ⟨_, rfl⟩
  | append_singleton keys key ih =>
    rw [List.length_append] at hdepth
    rw [memberAt_keyNames_concat]
    cases depth with
    | zero => exact ⟨_, rfl⟩
    | succ depth =>
      obtain ⟨f, hobject⟩ := ih (Nat.lt_of_succ_lt_succ hdepth)
      exact ⟨f, (run_bind_of_ok (run_isMath_memberAt hx _)).trans (run_bind_of_error hobject _)⟩

section

variable {self : Interp} {object : Expr} {name : Name} {u : State} {key : String}
  {container : Value}

theorem run_assignMember_of_set? {part : Value} (hkey : (self.memberKey name).run s = (.ok key, t))
    (hobject : (self.eval object).run t = (.ok container, u))
    (hset : container.set? key v = some part) :
    (self.assignMember object name v).run s = (self.putBack object part).run u := by
  refine (run_bind_of_ok hkey).trans ((run_bind_of_ok hobject).trans ?_)
  simp only [hset]

theorem run_assignMember_of_not_set? (hkey : (self.memberKey name).run s = (.ok key, t))
    (hobject : (self.eval object).run t = (.ok container, u))
    (hset : container.set? key v = none) :
    (self.assignMember object name v).run s =
      (.error (.fault (.unsettable key container.kind)), u) := by
  refine (run_bind_of_ok hkey).trans ((run_bind_of_ok hobject).trans ?_)
  simp only [hset]
  rfl

theorem run_putBack_memberAt (self : Interp) (x : String) (names : List Name) (v : Value) :
    self.putBack (memberAt x names) v = self.assign (memberAt x names) v :=
  if_pos (isPlace_memberAt x names)

end

/-- Assigning to a member writes at its path in the variable, or fails where nothing can be written,
and changes nothing then. -/
theorem run_assign_memberAt (hx : s.lookup? x = some root) (v : Value)
    (hdepth : keys.length ≤ depth) :
    (∀ changed, root.write? (keyTexts keys) v = some changed →
      ((interp put (depth + 1)).assign (memberAt x (keyNames keys)) v).run s =
        (.ok (), s.setVar x changed)) ∧
    (root.write? (keyTexts keys) v = none →
      ∃ f, ((interp put (depth + 1)).assign (memberAt x (keyNames keys)) v).run s =
        (.error f, s)) := by
  induction keys using List.reverseRecOn generalizing depth v with
  | nil =>
    refine ⟨fun changed h => ?_, fun h => (Option.some_ne_none _ h).elim⟩
    cases h
    rfl
  | append_singleton keys key ih =>
    obtain ⟨d, rfl, hd⟩ := exists_depth_of_concat hdepth
    have hobject := run_eval_memberAt hx hd
    rw [memberAt_keyNames_concat, keyTexts_concat]
    cases hread : root.read (keyTexts keys) with
    | error f =>
      rw [hread] at hobject
      rw [Value.write?_concat_of_not_read hread]
      refine ⟨fun changed h => (Option.some_ne_none _ h.symm).elim, fun _ => ⟨.fault f, ?_⟩⟩
      exact (run_bind_of_ok (key.run_memberKey d s)).trans (run_bind_of_error hobject _)
    | ok container =>
      rw [hread] at hobject
      rw [Value.write?_concat_of_read hread]
      cases hset : container.set? key.text v with
      | none =>
        refine ⟨fun changed h => (Option.some_ne_none _ h.symm).elim,
          fun _ => ⟨.fault (.unsettable key.text container.kind), ?_⟩⟩
        exact run_assignMember_of_not_set? (key.run_memberKey d s) hobject hset
      | some part =>
        have hrun := run_assignMember_of_set? (key.run_memberKey d s) hobject hset
        rw [run_putBack_memberAt] at hrun
        obtain ⟨hwritten, hfailed⟩ := ih part hd
        refine ⟨fun changed h => hrun.trans (hwritten changed h), fun h => ?_⟩
        obtain ⟨f, hf⟩ := hfailed h
        exact ⟨f, hrun.trans hf⟩

/-- A machine that is not given enough depth fails to assign to a member, and changes nothing. -/
theorem run_assign_memberAt_of_lt (hx : s.lookup? x = some root) (v : Value)
    (hdepth : depth < keys.length + 1) :
    ∃ f, ((interp put depth).assign (memberAt x (keyNames keys)) v).run s = (.error f, s) := by
  cases depth with
  | zero => exact ⟨_, rfl⟩
  | succ depth =>
    induction keys using List.reverseRecOn with
    | nil => exact absurd hdepth (Nat.not_lt.mpr (Nat.succ_le_succ (Nat.zero_le _)))
    | append_singleton keys key _ =>
      rw [List.length_append] at hdepth
      rw [memberAt_keyNames_concat]
      obtain ⟨f, hobject⟩ := run_eval_memberAt_of_lt hx (Nat.lt_of_succ_lt_succ hdepth)
      cases depth with
      | zero =>
        obtain ⟨o, hkey⟩ := key.run_memberKey_zero s
        cases o with
        | error f => exact ⟨f, run_bind_of_error hkey _⟩
        | ok text => exact ⟨f, (run_bind_of_ok hkey).trans (run_bind_of_error hobject _)⟩
      | succ d =>
        exact ⟨f, (run_bind_of_ok (key.run_memberKey d s)).trans (run_bind_of_error hobject _)⟩

/-! ### Assignments -/

/-- An assignment evaluates what is assigned, and then assigns it. -/
theorem run_eval_assign {e : Expr} (hne : keys ≠ [])
    (he : ((interp put depth).eval e).run s = (.ok v, t)) :
    ((interp put (depth + 1)).eval (.assign .plain (.place (memberAt x (keyNames keys))) e)).run s =
      ((interp put (depth + 1)).assign (memberAt x (keyNames keys)) v >>= fun _ => pure v).run
        t := by
  obtain ⟨init, key, rfl⟩ : ∃ init key, keys = init ++ [key] :=
    ⟨_, _, (List.dropLast_concat_getLast hne).symm⟩
  rw [memberAt_keyNames_concat]
  let target : Binding := .place (.member (memberAt x (keyNames init)) key.name)
  have hvalue : ((interp put depth).assignedValue .plain target e).run s = (.ok (.inl v), t) :=
    (run_bind_of_ok he).trans rfl
  exact run_bind_of_ok hvalue

/-- **Assigning to a member changes that member only.**  An assignment to a member of a variable, at
keys that are written out, either fails and changes nothing, which it only does if nothing can be
written at the path of the keys or the machine is not given enough depth, or it gives the value that
is assigned, and then the member has this value, the states before and after differ at most in the
variable, and reading another member of the variable that leaves the path gives what it gave. -/
theorem assignment_lens {e : Expr} (hne : keys ≠ [])
    (hlast : (keyTexts keys).getLast? ≠ some "length")
    (hx : t.lookup? x = some root) (he : ((interp put depth).eval e).run s = (.ok v, t)) :
    (∃ f, ((interp put (depth + 1)).eval
        (.assign .plain (.place (memberAt x (keyNames keys))) e)).run s = (.error f, t) ∧
      (keys.length ≤ depth → root.write? (keyTexts keys) v = none)) ∨
    ∃ u, ((interp put (depth + 1)).eval
        (.assign .plain (.place (memberAt x (keyNames keys))) e)).run s = (.ok v, u) ∧
      ((interp put (depth + 1)).eval (memberAt x (keyNames keys))).run u = (.ok v, u) ∧
      t.DiffersAt x u ∧
      ∀ others, root.Leaves (keyTexts keys) (keyTexts others) → ∀ more, others.length ≤ more →
        ∃ o, ((interp put (more + 1)).eval (memberAt x (keyNames others))).run t = (o, t) ∧
          ((interp put (more + 1)).eval (memberAt x (keyNames others))).run u = (o, u) := by
  rw [run_eval_assign hne he]
  rcases Nat.lt_or_ge depth keys.length with hlt | hdepth
  · obtain ⟨f, hf⟩ := run_assign_memberAt_of_lt hx v (Nat.succ_lt_succ hlt)
    exact .inl ⟨f, run_bind_of_error hf _, fun hle => absurd hlt (Nat.not_lt.mpr hle)⟩
  · obtain ⟨hwritten, hfailed⟩ := run_assign_memberAt hx v hdepth
    cases hwrite : root.write? (keyTexts keys) v with
    | none =>
      obtain ⟨f, hf⟩ := hfailed hwrite
      exact .inl ⟨f, run_bind_of_error hf _, fun _ => rfl⟩
    | some changed =>
      have hchanged : (t.setVar x changed).lookup? x = some changed :=
        lookup?_setVar_self (scopes_ne_nil_of_lookup? hx) x changed
      refine .inr ⟨t.setVar x changed, run_bind_of_ok (hwritten changed hwrite), ?_,
        differsAt_setVar hx changed, fun others hleaves more hmore => ?_⟩
      · rw [run_eval_memberAt hchanged hdepth, Value.read_of_write? hlast hwrite]
        rfl
      · refine ⟨_, run_eval_memberAt hx hmore, ?_⟩
        rw [run_eval_memberAt hchanged hmore, Value.read_of_leaves hlast hwrite hleaves]

/-! ### A member at three keys -/

/-- An object with an array, which holds an object. -/
def layered : Value :=
  .object [("rows", .array [.null, .object [("name", .string "old")]]),
    ("total", .number (.finite 2))]

/-- The member `result["rows"][1].name`. -/
def layeredKeys : List ConstantKey := [.ofString "rows", .ofNumber (.finite 1), .ofName "name"]

theorem write?_layered : (layered.write? (keyTexts layeredKeys) (.string "new")).isSome = true := by
  decide

theorem leaves_layered : layered.Leaves (keyTexts layeredKeys) (keyTexts [.ofName "total"]) := by
  refine .here _ _ ?_ ?_
  · rintro (heq | ⟨items, i, heq, -⟩)
    · exact absurd heq (by decide)
    · cases heq
  · rintro ⟨-, items, heq⟩
    cases heq

/-- The state before a run on it. -/
def beforeLayered : State := .initial layered none Session.empty 100

theorem assignment_lens_layered :
    ∃ u, ((interp put 4).eval (.assign .plain
          (.place (memberAt "result" (keyNames layeredKeys))) (.string "new"))).run beforeLayered =
        (.ok (.string "new"), u) ∧
      ((interp put 4).eval (memberAt "result" (keyNames layeredKeys))).run u =
        (.ok (.string "new"), u) ∧
      beforeLayered.DiffersAt "result" u ∧
      ∃ o, ((interp put 2).eval (memberAt "result" (keyNames [.ofName "total"]))).run
          beforeLayered = (o, beforeLayered) ∧
        ((interp put 2).eval (memberAt "result" (keyNames [.ofName "total"]))).run u = (o, u) := by
  have hne : layeredKeys ≠ [] := List.cons_ne_nil _ _
  have hx : beforeLayered.lookup? "result" = some layered := rfl
  have he : ((interp put 3).eval (.string "new")).run beforeLayered =
      (.ok (.string "new"), beforeLayered) := rfl
  obtain ⟨_, -, hnone⟩ | ⟨u, hassigned, hread, hdiffers, hothers⟩ :=
    assignment_lens hne (by decide) hx he
  · have hsome := write?_layered
    rw [hnone (Nat.le_refl 3)] at hsome
    cases hsome
  · exact ⟨u, hassigned, hread, hdiffers, hothers _ leaves_layered 1 (Nat.le_refl 1)⟩

end Scrape.Script
