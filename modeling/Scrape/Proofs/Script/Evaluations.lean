import Mathlib.Control.Monad.Basic
import Scrape.Proofs.Script.Member

/-!
# Script — Evaluations

How often the keys of a member are evaluated by what changes the member.  Reading a member evaluates
each of its keys once, from the first to the last (`Reads`).  Writing one evaluates its last key,
then reads the container with all keys before that, and then writes the changed container back in
the same way; so it evaluates the first key once for each of the keys, and only the last one once
(`Writes`).  What a run does to the state is traced by these events and the rest of it, one after
the other (`Trace`).

Main statement (`change_evaluates`): the evaluations of each key by an assignment, an increment, a
deletion or a call of a method, and when each key is evaluated exactly once.
-/

namespace Scrape.Script

open Run

/-! ### Events -/

/-- Something that happens while a member of a variable is changed: the variable is read, or found
to be none but the constants of mathematics; a key is evaluated to a text; the variable is set; or
something that is no part of the member is evaluated. -/
inductive Event
  | read (root : Value)
  | constants
  | key (i : Nat) (text : String)
  | set (root : Value)
  | rest

namespace Event

/-- Whether the event is an evaluation of the key at a place. -/
def isKey (i : Nat) : Event → Bool
  | .key j _ => i = j
  | _        => false

/-- The event happens between two states. -/
def Happens (x : String) (names : List Name) (rest : State → State → Prop) :
    Event → State → State → Prop
  | .read root,  s, t => (valueOf x).run s = (.ok root, t)
  | .constants,  s, t => (Interp.isMath (.name x)).run s = (.ok true, t)
  | .key i text, s, t => ∃ name depth, names[i]? = some name ∧
      ((interp put depth).memberKey name).run s = (.ok text, t)
  | .set root,   s, t => (setVar false x root).run s = (.ok (), t)
  | .rest,       s, t => rest s t

/-- The event is as it is where the variable keeps its value and each key its text. -/
def Steady (root : Value) (keys : List String) : Event → Prop
  | .read r     => r = root
  | .constants  => False
  | .key i text => keys[i]? = some text
  | .set _      => True
  | .rest       => True

end Event

/-- The events happen between two states, one after the other. -/
inductive Trace (x : String) (names : List Name) (rest : State → State → Prop) :
    List Event → State → State → Prop
  | nil (s : State) : Trace x names rest [] s s
  | cons {event : Event} {events : List Event} {s t u : State} :
      event.Happens x names rest s t → Trace x names rest events t u →
      Trace x names rest (event :: events) s u

/-- How often the key at a place is evaluated. -/
def evaluations (i : Nat) (events : List Event) : Nat := events.countP (Event.isKey i)

/-- The events of reading a member at some keys that has a value. -/
inductive Reads : Nat → Value → List Event → Prop
  | name (root : Value) : Reads 0 root [.read root]
  | constant (text : String) : Reads 1 (mathConstant text) [.constants, .key 0 text]
  | member {n : Nat} {container : Value} {events : List Event} (text : String) :
      Reads n container events → container.isNullish = false →
      Reads (n + 1) (container.get text) (events ++ [.key n text])

/-- The events of writing a value to a member at some keys. -/
inductive Writes : Nat → Value → List Event → Prop
  | name (root : Value) : Writes 0 root [.set root]
  | member {n : Nat} {container v part : Value} {text : String} {reading writing : List Event} :
      Reads n container reading → container.set? text v = some part → Writes n part writing →
      Writes (n + 1) v (.key n text :: (reading ++ writing))

section

variable {x : String} {names : List Name} {rest : State → State → Prop} {s t u : State}
  {events more : List Event}

namespace Trace

theorem one {event : Event} (h : event.Happens x names rest s t) :
    Trace x names rest [event] s t :=
  .cons h (.nil t)

theorem append (h : Trace x names rest events s t) (hmore : Trace x names rest more t u) :
    Trace x names rest (events ++ more) s u := by
  induction h with
  | nil => exact hmore
  | cons hevent _ ih => exact .cons hevent (ih hmore)

/-- Events at some keys are events at more of them. -/
theorem more_names (h : Trace x names rest events s t) (others : List Name) :
    Trace x (names ++ others) rest events s t := by
  induction h with
  | nil => exact .nil _
  | @cons event events s t u hevent _ ih =>
    refine .cons ?_ ih
    cases event with
    | key i text =>
      obtain ⟨name, depth, hname, hkey⟩ := hevent
      obtain ⟨hi, -⟩ := List.getElem?_eq_some_iff.mp hname
      exact ⟨name, depth, (List.getElem?_append_left hi).trans hname, hkey⟩
    | _ => exact hevent

end Trace

theorem happens_last_key {name : Name} {text : String} {depth : Nat}
    (h : ((interp put depth).memberKey name).run s = (.ok text, t)) :
    (Event.key names.length text).Happens x (names ++ [name]) rest s t :=
  ⟨name, depth, List.getElem?_concat_length, h⟩

/-! ### Reading and writing members -/

theorem isMath_memberAt_cases {b : Bool}
    (h : (Interp.isMath (memberAt x names)).run s = (.ok b, t)) :
    t = s ∧ (b = true → names = [] ∧ (Interp.isMath (.name x)).run s = (.ok true, s)) := by
  induction names using List.reverseRecOn with
  | nil =>
    have hstate : t = s := congrArg Prod.snd h.symm
    subst hstate
    refine ⟨rfl, ?_⟩
    rintro rfl
    exact ⟨rfl, h⟩
  | append_singleton names name _ =>
    rw [memberAt_concat] at h
    cases h
    exact ⟨rfl, fun h => absurd h Bool.false_ne_true⟩

/-- A run that gives the value of a member reads it. -/
theorem exists_reads {depth : Nat} {v : Value}
    (h : ((interp put depth).eval (memberAt x names)).run s = (.ok v, t)) :
    ∃ events, Reads names.length v events ∧ Trace x names rest events s t := by
  -- on the last key, which is evaluated after the object has been read with the others
  induction names using List.reverseRecOn generalizing depth v t with
  | nil =>
    cases depth with
    | zero => cases h
    | succ depth => exact ⟨_, .name v, .one h⟩
  | append_singleton names name ih =>
    rw [memberAt_concat] at h
    cases depth with
    | zero => cases h
    | succ depth =>
      obtain ⟨b, s', hmath, h⟩ := exists_of_run_bind h
      obtain ⟨rfl, hconstants⟩ := isMath_memberAt_cases hmath
      rw [List.length_append]
      cases b with
      | true =>
        -- the constants are those of a name, so there is no key before this one
        obtain ⟨rfl, hmath⟩ := hconstants rfl
        obtain ⟨text, u, hkey, h⟩ := exists_of_run_bind h
        cases h
        exact ⟨_, .constant text, .cons hmath (.one (happens_last_key hkey))⟩
      | false =>
        obtain ⟨container, u, hobject, h⟩ := exists_of_run_bind h
        obtain ⟨text, u', hkey, h⟩ := exists_of_run_bind h
        obtain ⟨events, hreads, htrace⟩ := ih hobject
        cases hnullish : container.isNullish with
        | true =>
          rw [hnullish] at h
          cases h
        | false =>
          rw [hnullish] at h
          cases h
          exact ⟨_, .member text hreads hnullish,
            (htrace.more_names [name]).append (.one (happens_last_key hkey))⟩

/-- A run that assigns to a member writes to it. -/
theorem exists_writes {depth : Nat} {v : Value}
    (h : ((interp put depth).assign (memberAt x names) v).run s = (.ok (), t)) :
    ∃ events, Writes names.length v events ∧ Trace x names rest events s t := by
  induction names using List.reverseRecOn generalizing depth v s with
  | nil =>
    cases depth with
    | zero => cases h
    | succ depth => exact ⟨_, .name v, .one h⟩
  | append_singleton names name ih =>
    rw [memberAt_concat] at h
    cases depth with
    | zero => cases h
    | succ depth =>
      obtain ⟨text, s', hkey, h⟩ := exists_of_run_bind h
      obtain ⟨container, u, hobject, h⟩ := exists_of_run_bind h
      obtain ⟨reading, hreads, hreading⟩ := exists_reads hobject
      cases hset : container.set? text v with
      | none =>
        rw [hset] at h
        cases h
      | some part =>
        -- the changed container is put back by an assignment to the object, with all its keys again
        simp only [hset, run_putBack_memberAt] at h
        obtain ⟨writing, hwrites, hwriting⟩ := ih h
        rw [List.length_append]
        exact ⟨_, .member hreads hset hwrites,
          .cons (happens_last_key hkey) ((hreading.append hwriting).more_names [name])⟩

end

/-! ### How often, and which slots -/

section

variable {n i : Nat} {container v root changed : Value} {events more : List Event}
  {keys : List String}

theorem evaluations_append (i : Nat) (events more : List Event) :
    evaluations i (events ++ more) = evaluations i events + evaluations i more :=
  List.countP_append

theorem evaluations_key (i n : Nat) (text : String) (events : List Event) :
    evaluations i (.key n text :: events) = (if i = n then 1 else 0) + evaluations i events := by
  rw [evaluations, List.countP_cons, Nat.add_comm]
  simp [Event.isKey, evaluations]

theorem evaluations_rest (i : Nat) (events : List Event) :
    evaluations i (.rest :: events) = evaluations i events :=
  List.countP_cons_of_neg Bool.false_ne_true

/-- Reading evaluates each key once. -/
theorem Reads.evaluations_eq (h : Reads n container events) (i : Nat) :
    evaluations i events = if i < n then 1 else 0 := by
  induction h with
  | name root => rfl
  | constant text =>
    rw [show evaluations i [.constants, .key 0 text] = evaluations i [.key 0 text] from rfl,
      evaluations_key]
    cases i <;> rfl
  | @member n container events text _ _ ih =>
    rw [evaluations_append, ih, evaluations_key]
    change _ + (_ + 0) = _
    split <;> split <;> split <;> omega

/-- Writing evaluates the last key once, and each one before it once more than the next. -/
theorem Writes.evaluations_eq (h : Writes n v events) (i : Nat) : evaluations i events = n - i := by
  induction h with
  | name root => exact (Nat.zero_sub i).symm
  | member hreads _ _ ih =>
    rw [evaluations_key, evaluations_append, hreads.evaluations_eq, ih]
    split <;> split <;> omega

theorem Reads.not_set (h : Reads n container events) : .set changed ∉ events := by
  induction h with
  | name root => simp
  | constant text => simp
  | member text _ _ ih => simp [ih]

theorem Event.Steady.concat {e : Event} (h : e.Steady root keys) (text : String) :
    e.Steady root (keys ++ [text]) := by
  cases e with
  | key i other => exact (List.getElem?_append_left (List.getElem?_eq_some_iff.mp h).1).trans h
  | _ => exact h

/-- The variable is read once, and each key has one text. -/
theorem Reads.exists_steady (h : Reads n container events) (hconstants : .constants ∉ events) :
    ∃ root keys, keys.length = n ∧ ∀ e ∈ events, e.Steady root keys := by
  induction h with
  | name root =>
    refine ⟨root, [], rfl, fun e he => ?_⟩
    cases List.mem_singleton.mp he
    rfl
  | constant text => exact absurd List.mem_cons_self hconstants
  | @member n container events text _ _ ih =>
    obtain ⟨root, keys, rfl, hsteady⟩ := ih fun h => hconstants (List.mem_append_left _ h)
    refine ⟨root, keys ++ [text], List.length_append, fun e he => ?_⟩
    obtain he | he := List.mem_append.mp he
    · exact (hsteady e he).concat text
    · cases List.mem_singleton.mp he
      exact List.getElem?_concat_length

/-- What reading gives stands at the path of the keys. -/
theorem Reads.read_eq (h : Reads n container events) (hsteady : ∀ e ∈ events, e.Steady root keys) :
    root.read (keys.take n) = .ok container := by
  induction h with
  | name r =>
    rw [(hsteady _ (List.mem_singleton_self _) : r = root)]
    rfl
  | constant text => exact (hsteady _ List.mem_cons_self).elim
  | @member n container events text _ hnullish ih =>
    have hlast : keys[n]? = some text := hsteady (.key n text) (by simp)
    rw [List.take_add_one, hlast, Option.toList_some, Value.read_concat,
      ih fun e he => hsteady e (List.mem_append_left _ he)]
    change Value.read [text] container = _
    rw [Value.read, hnullish, if_neg Bool.false_ne_true]
    rfl

/-- What writing sets is the variable with the value written at the path of the keys. -/
theorem Writes.write?_eq (h : Writes n v events) (hsteady : ∀ e ∈ events, e.Steady root keys)
    (hset : .set changed ∈ events) : root.write? (keys.take n) v = some changed := by
  induction h with
  | name r =>
    cases List.mem_singleton.mp hset
    rfl
  | @member n container v part text reading writing hreads hpart _ ih =>
    have hlast : keys[n]? = some text := hsteady _ List.mem_cons_self
    have hread := hreads.read_eq fun e he =>
      hsteady e (List.mem_cons_of_mem _ (List.mem_append_left _ he))
    have hrest : .set changed ∈ writing := by
      simpa [hreads.not_set] using hset
    rw [List.take_add_one, hlast, Option.toList_some, Value.write?_concat_of_read hread, hpart,
      Option.bind_some]
    exact ih (fun e he => hsteady e (List.mem_cons_of_mem _ (List.mem_append_right _ he))) hrest

end

/-! ### Operations on members -/

/-- Whether the assignment may leave its target as it is. -/
def AssignOp.mayKeep : AssignOp → Bool
  | .and     => true
  | .or      => true
  | .nullish => true
  | _        => false

/-- What can change a member: an assignment, an increment or decrement, a deletion, or a call of a
method. -/
inductive Operation
  | assign (op : AssignOp) (e : Expr)
  | update (before up : Bool)
  | delete
  | method (name : Name) (args : List Expr)

namespace Operation

/-- The expression of the operation on a member. -/
def expr (target : Expr) : Operation → Expr
  | .assign op e       => .assign op (.place target) e
  | .update before up  => .update before up target
  | .delete            => .unary .delete target
  | .method name args  => .call (.member target name) args

/-- Whether the operation reads the member before anything else. -/
def readsFirst : Operation → Bool
  | .assign .plain _ => false
  | .delete          => false
  | _                => true

/-- Whether the operation writes whenever it ends well. -/
def alwaysWrites : Operation → Bool
  | .assign op _ => !op.mayKeep
  | .update ..   => true
  | _            => false

/-- What the operation does that is no part of the member: it evaluates what is assigned, or the
name of the method, or the arguments, with which it calls the method. -/
def Rest : Operation → State → State → Prop
  | .assign _ e,       s, t => ∃ depth v, ((interp put depth).eval e).run s = (.ok v, t)
  | .method name args, s, t => ∃ depth,
      (∃ called, ((interp put depth).memberKey name).run s = (.ok called, t)) ∨
      ∃ target called values u reply,
        ((interp put depth).evalItems [] args).run s = (.ok values, u) ∧
        ((interp put depth).callMethod target called values).run u = (.ok reply, t)
  | _,                 _, _ => False

/-- The path of what the operation reads and writes: that of the member, or of the object from which
the member is deleted. -/
def slot (keys : List String) : Operation → List String
  | .delete => keys.dropLast
  | _       => keys

/-- The events of the operation on a member at some keys, with what it reads and what it writes, if
anything.  Nothing is written by an assignment that keeps its target (`kept`), by a deletion from
what is no object (`passed`), and by a method that changes nothing (`called`). -/
inductive Changes : Nat → Operation → Option Value → Option Value → List Event → Prop
  | assigned {n : Nat} {e : Expr} {v : Value} {writing : List Event} :
      Writes n v writing → Changes n (.assign .plain e) none (some v) (.rest :: writing)
  | kept {n : Nat} {op : AssignOp} {e : Expr} {old : Value} {reading : List Event} :
      op.mayKeep = true → Reads n old reading →
      Changes n (.assign op e) (some old) none reading
  | reassigned {n : Nat} {op : AssignOp} {e : Expr} {old v : Value}
      {reading writing : List Event} :
      op ≠ .plain → Reads n old reading → Writes n v writing →
      Changes n (.assign op e) (some old) (some v) (reading ++ .rest :: writing)
  | updated {n : Nat} {before up : Bool} {old v : Value} {reading writing : List Event} :
      Reads n old reading → Writes n v writing →
      Changes n (.update before up) (some old) (some v) (reading ++ writing)
  | passed {n : Nat} {container : Value} {text : String} {reading : List Event} :
      Reads n container reading →
      Changes (n + 1) .delete (some container) none (.key n text :: reading)
  | deleted {n : Nat} {fields : List (String × Value)} {text : String}
      {reading writing : List Event} :
      Reads n (.object fields) reading → Writes n (.object (Keyed.erase text fields)) writing →
      Changes (n + 1) .delete (some (.object fields)) (some (.object (Keyed.erase text fields)))
        (.key n text :: (reading ++ writing))
  | called {n : Nat} {name : Name} {args : List Expr} {target : Value} {reading : List Event} :
      Reads n target reading →
      Changes n (.method name args) (some target) none (.rest :: (reading ++ [.rest]))
  | changed {n : Nat} {name : Name} {args : List Expr} {target v : Value}
      {reading writing : List Event} :
      Reads n target reading → Writes n v writing →
      Changes n (.method name args) (some target) (some v)
        (.rest :: (reading ++ .rest :: writing))

end Operation

section

variable {x : String} {names : List Name} {rest : State → State → Prop} {s t u : State}
  {depth n : Nat} {o : Operation} {old? new? : Option Value} {events : List Event}

theorem state_of_run_ofOutcome {α : Type} {outcome : Outcome α} {a : α}
    (h : (ofOutcome outcome).run s = (.ok a, t)) : t = s := by
  cases outcome <;> cases h
  rfl

/-- How the value of an assignment comes about. -/
theorem assignedValue_cases {self : Interp} {op : AssignOp} {target : Binding} {e : Expr}
    {r : Value ⊕ Value} (h : (self.assignedValue op target e).run s = (.ok r, t)) :
    (op = .plain ∧ ∃ v, r = .inl v ∧ (self.eval e).run s = (.ok v, t)) ∨
    (op.mayKeep = true ∧ ∃ old, r = .inr old ∧ (self.readTarget target).run s = (.ok old, t)) ∨
    (op ≠ .plain ∧ ∃ old u w v, (self.readTarget target).run s = (.ok old, u) ∧
      (self.eval e).run u = (.ok w, t) ∧ r = .inl v) := by
  have assignedIf (p : Value → Bool) (hp : (do
      let old ← self.readTarget target
      if p old then return .inl (← self.eval e) else return .inr old :
        Run (Value ⊕ Value)).run s = (.ok r, t)) :
      (∃ old, r = .inr old ∧ (self.readTarget target).run s = (.ok old, t)) ∨
      ∃ old u w v, (self.readTarget target).run s = (.ok old, u) ∧
        (self.eval e).run u = (.ok w, t) ∧ r = .inl v := by
    obtain ⟨old, u, hread, hp⟩ := exists_of_run_bind hp
    split at hp
    · obtain ⟨w, u', hw, hp⟩ := exists_of_run_bind hp
      cases hp
      exact .inr ⟨old, u, w, w, hread, hw, rfl⟩
    · cases hp
      exact .inl ⟨old, rfl, hread⟩
  cases op with
  | plain =>
    obtain ⟨v, u, hv, h⟩ := exists_of_run_bind h
    cases h
    exact .inl ⟨rfl, v, rfl, hv⟩
  | compound op =>
    obtain ⟨old, u, hread, h⟩ := exists_of_run_bind h
    obtain ⟨w, u', hw, h⟩ := exists_of_run_bind h
    obtain ⟨v, u'', hv, h⟩ := exists_of_run_bind h
    cases h
    obtain rfl := state_of_run_ofOutcome hv
    exact .inr (.inr ⟨by simp, old, u, w, v, hread, hw, rfl⟩)
  | and => exact .inr ((assignedIf _ h).imp (⟨rfl, ·⟩) (⟨by simp, ·⟩))
  | or => exact .inr ((assignedIf _ h).imp (⟨rfl, ·⟩) (⟨by simp, ·⟩))
  | nullish => exact .inr ((assignedIf _ h).imp (⟨rfl, ·⟩) (⟨by simp, ·⟩))

/-! ### Runs of operations -/

/-- The last key of the member is what the operation is at. -/
theorem readTarget_memberAt (depth : Nat) (x : String) (names : List Name) (name : Name) :
    (interp put depth).readTarget (.place (.member (memberAt x names) name)) =
      (interp put (depth + 1)).eval (memberAt x (names ++ [name])) := by
  rw [memberAt_concat]
  rfl

theorem writeTarget_memberAt (depth : Nat) (x : String) (names : List Name) (name : Name)
    (v : Value) : (interp put depth).writeTarget (.place (.member (memberAt x names) name)) v =
      (interp put (depth + 1)).assign (memberAt x (names ++ [name])) v := by
  rw [memberAt_concat]
  rfl

theorem exists_changes_assign {name : Name} {op : AssignOp} {e : Expr} {v : Value}
    (h : ((interp put depth).evalAssign op (.place (.member (memberAt x names) name)) e).run s =
      (.ok v, t)) :
    ∃ old? new? events,
      (Operation.assign op e).Changes (names ++ [name]).length old? new? events ∧
      Trace x (names ++ [name]) (Operation.assign op e).Rest events s t := by
  obtain ⟨r, u, hr, h⟩ := exists_of_run_bind h
  have writes {v' : Value} (hr : r = .inl v') :
      ∃ events, Writes (names ++ [name]).length v' events ∧
        Trace x (names ++ [name]) (Operation.assign op e).Rest events u t := by
    subst hr
    obtain ⟨_, u', hwrite, h⟩ := exists_of_run_bind h
    cases h
    rw [writeTarget_memberAt] at hwrite
    exact exists_writes hwrite
  rcases assignedValue_cases hr with ⟨rfl, v', hr, hv⟩ | ⟨hkeep, old, rfl, hold⟩ |
    ⟨hop, old, u', w, v', hold, hw, hr⟩
  · obtain ⟨writing, hwrites, hwriting⟩ := writes hr
    exact ⟨_, _, _, .assigned hwrites, .cons ⟨depth, v', hv⟩ hwriting⟩
  · cases h
    rw [readTarget_memberAt] at hold
    obtain ⟨reading, hreads, hreading⟩ := exists_reads hold
    exact ⟨_, _, _, .kept hkeep hreads, hreading⟩
  · rw [readTarget_memberAt] at hold
    obtain ⟨reading, hreads, hreading⟩ := exists_reads hold
    obtain ⟨writing, hwrites, hwriting⟩ := writes hr
    exact ⟨_, _, _, .reassigned hop hreads hwrites,
      hreading.append (.cons ⟨depth, w, hw⟩ hwriting)⟩

theorem exists_changes_update {before up : Bool} {v : Value}
    (h : ((interp put depth).evalUpdate before up (memberAt x names)).run s = (.ok v, t)) :
    ∃ old? new? events, (Operation.update before up).Changes names.length old? new? events ∧
      Trace x names (Operation.update before up).Rest events s t := by
  obtain ⟨old, u, hold, h⟩ := exists_of_run_bind h
  obtain ⟨_, u', hwrite, h⟩ := exists_of_run_bind h
  cases h
  obtain ⟨reading, hreads, hreading⟩ := exists_reads hold
  obtain ⟨writing, hwrites, hwriting⟩ := exists_writes hwrite
  exact ⟨_, _, _, .updated hreads hwrites, hreading.append hwriting⟩

theorem exists_changes_delete {name : Name}
    (h : ((interp put depth).deleteMember (memberAt x names) name).run s = (.ok (), t)) :
    ∃ old? new? events, Operation.delete.Changes (names ++ [name]).length old? new? events ∧
      Trace x (names ++ [name]) Operation.delete.Rest events s t := by
  obtain ⟨text, u, hkey, h⟩ := exists_of_run_bind h
  obtain ⟨container, u', hobject, h⟩ := exists_of_run_bind h
  obtain ⟨reading, hreads, hreading⟩ := exists_reads hobject
  rw [List.length_append]
  cases container with
  | object fields =>
    simp only [run_putBack_memberAt] at h
    obtain ⟨writing, hwrites, hwriting⟩ := exists_writes h
    exact ⟨_, _, _, .deleted hreads hwrites,
      .cons (happens_last_key hkey) ((hreading.append hwriting).more_names [name])⟩
  | _ =>
    cases h
    exact ⟨_, _, _, .passed hreads, .cons (happens_last_key hkey) (hreading.more_names [name])⟩

theorem exists_changes_method {member : Name} {args : List Expr} {v : Value} (hne : names ≠ [])
    (h : ((interp put depth).evalMethodCall (memberAt x names) member args).run s = (.ok v, t)) :
    ∃ old? new? events, (Operation.method member args).Changes names.length old? new? events ∧
      Trace x names (Operation.method member args).Rest events s t := by
  have hspace {s : State} : (Interp.namespaceOf? (memberAt x names)).run s = (.ok none, s) := by
    rw [← List.dropLast_concat_getLast hne, memberAt_concat]
    rfl
  obtain ⟨called, s₁, hcalled, h⟩ := exists_of_run_bind h
  replace h := (run_bind_of_ok hspace).symm.trans h
  obtain ⟨target, s₂, htarget, h⟩ := exists_of_run_bind h
  obtain ⟨values, s₃, hargs, h⟩ := exists_of_run_bind h
  obtain ⟨reply, s₄, hreply, h⟩ := exists_of_run_bind h
  obtain ⟨reading, hreads, hreading⟩ := exists_reads htarget
  have hname : (Operation.method member args).Rest s s₁ := ⟨depth, .inl ⟨called, hcalled⟩⟩
  have hcall : (Operation.method member args).Rest s₂ s₄ :=
    ⟨depth, .inr ⟨target, called, values, s₃, reply, hargs, hreply⟩⟩
  cases hchanged : reply.changed? with
  | none =>
    simp only [hchanged] at h
    cases h
    exact ⟨_, _, _, .called hreads, .cons hname (hreading.append (.one hcall))⟩
  | some changed =>
    simp only [hchanged, run_putBack_memberAt] at h
    obtain ⟨_, s₅, hwrite, h⟩ := exists_of_run_bind h
    cases h
    obtain ⟨writing, hwrites, hwriting⟩ := exists_writes hwrite
    exact ⟨_, _, _, .changed hreads hwrites,
      .cons hname (hreading.append (.cons hcall hwriting))⟩

/-- A run of an operation on a member that ends well is one of its events. -/
theorem exists_changes {v : Value} (hne : names ≠ [])
    (h : ((interp put depth).eval (o.expr (memberAt x names))).run s = (.ok v, t)) :
    ∃ old? new? events, o.Changes names.length old? new? events ∧
      Trace x names o.Rest events s t := by
  obtain ⟨init, name, rfl⟩ : ∃ init name, names = init ++ [name] :=
    ⟨_, _, (List.dropLast_concat_getLast hne).symm⟩
  cases depth with
  | zero => cases h
  | succ depth =>
    cases o with
    | assign op e =>
      rw [Operation.expr, memberAt_concat] at h
      exact exists_changes_assign h
    | update before up => exact exists_changes_update h
    | delete =>
      rw [Operation.expr, memberAt_concat] at h
      obtain ⟨_, u, hdelete, h⟩ := exists_of_run_bind h
      cases h
      exact exists_changes_delete hdelete
    | method member args => exact exists_changes_method hne h

namespace Operation.Changes

/-- How often each key is evaluated. -/
theorem evaluations_eq (h : o.Changes n old? new? events) {i : Nat} (hi : i < n) :
    evaluations i events =
      if new?.isSome then n - i + (if o.readsFirst then 1 else 0) else 1 := by
  cases h with
  | assigned hwrites => rw [evaluations_rest, hwrites.evaluations_eq]; rfl
  | @kept n op e old reading hkeep hreads => rw [hreads.evaluations_eq, if_pos hi]; rfl
  | @reassigned n op e old v reading writing hop hreads hwrites =>
    rw [evaluations_append, evaluations_rest, hreads.evaluations_eq, hwrites.evaluations_eq,
      if_pos hi, Nat.add_comm]
    cases op with
    | plain => exact absurd rfl hop
    | _ => rfl
  | updated hreads hwrites =>
    rw [evaluations_append, hreads.evaluations_eq, hwrites.evaluations_eq, if_pos hi, Nat.add_comm]
    rfl
  | passed hreads =>
    rw [evaluations_key, hreads.evaluations_eq]
    change _ = 1
    split <;> split <;> omega
  | @deleted n fields text reading writing hreads hwrites =>
    rw [evaluations_key, evaluations_append, hreads.evaluations_eq, hwrites.evaluations_eq]
    change _ = n + 1 - i + 0
    split <;> split <;> omega
  | called hreads =>
    rw [evaluations_rest, evaluations_append, hreads.evaluations_eq, if_pos hi]
    rfl
  | changed hreads hwrites =>
    rw [evaluations_rest, evaluations_append, evaluations_rest, hreads.evaluations_eq,
      hwrites.evaluations_eq, if_pos hi, Nat.add_comm]
    rfl

/-- Each key is evaluated once if nothing is written, or if there is one key only and the member is
not read first. -/
theorem once_iff (h : o.Changes n old? new? events) (hn : n ≠ 0) :
    (∀ i < n, evaluations i events = 1) ↔ new? = none ∨ n = 1 ∧ o.readsFirst = false := by
  constructor
  · intro honce
    have hfirst := honce 0 (Nat.pos_of_ne_zero hn)
    rw [h.evaluations_eq (Nat.pos_of_ne_zero hn)] at hfirst
    cases new? with
    | none => exact .inl rfl
    | some v =>
      right
      cases hreads : o.readsFirst with
      | false => simpa [hreads] using hfirst
      | true => simp [hreads, hn] at hfirst
  · intro h' i hi
    rw [h.evaluations_eq hi]
    obtain rfl | ⟨rfl, hreads⟩ := h'
    · rfl
    · rw [Nat.lt_one_iff.mp hi, hreads]
      exact ite_self 1

theorem isSome_of_alwaysWrites (h : o.Changes n old? new? events) (ho : o.alwaysWrites = true) :
    new?.isSome = true := by
  cases h with
  | kept hkeep _ => simp [Operation.alwaysWrites, hkeep] at ho
  | passed | called => exact absurd ho Bool.false_ne_true
  | _ => rfl

/-- What is read and what is written stand at the same path. -/
theorem slot_eq {root : Value} {keys : List String} (h : o.Changes n old? new? events)
    (hkeys : keys.length = n) (hsteady : ∀ e ∈ events, e.Steady root keys) :
    (∀ old, old? = some old → root.read (o.slot keys) = .ok old) ∧
    ∀ v, new? = some v → ∀ changed, .set changed ∈ events →
      root.write? (o.slot keys) v = some changed := by
  have read {m : Nat} {container : Value} {reading : List Event}
      (hreads : Reads m container reading)
      (hmem : ∀ e ∈ reading, e ∈ events) : root.read (keys.take m) = .ok container :=
    hreads.read_eq fun e he => hsteady e (hmem e he)
  have write {m : Nat} {v changed : Value} {writing : List Event} (hwrites : Writes m v writing)
      (hmem : ∀ e ∈ writing, e ∈ events) (hset : .set changed ∈ writing) :
      root.write? (keys.take m) v = some changed :=
    hwrites.write?_eq (fun e he => hsteady e (hmem e he)) hset
  have hall : keys.take n = keys := List.take_of_length_le (Nat.le_of_eq hkeys)
  have hinit : keys.take (n - 1) = keys.dropLast := by rw [List.dropLast_eq_take, hkeys]
  cases h with
  | assigned hwrites =>
    refine ⟨by simp, ?_⟩
    rintro _ ⟨rfl⟩ changed hset
    exact hall ▸ write hwrites (fun e he => by simp [he]) (by simpa using hset)
  | kept _ hreads =>
    refine ⟨?_, by simp⟩
    rintro _ ⟨rfl⟩
    exact hall ▸ read hreads fun e he => he
  | reassigned _ hreads hwrites | updated hreads hwrites | changed hreads hwrites =>
    refine ⟨?_, ?_⟩
    · rintro _ ⟨rfl⟩
      exact hall ▸ read hreads fun e he => by simp [he]
    · rintro _ ⟨rfl⟩ changed hset
      exact hall ▸ write hwrites (fun e he => by simp [he]) (by simpa [hreads.not_set] using hset)
  | called hreads =>
    refine ⟨?_, by simp⟩
    rintro _ ⟨rfl⟩
    exact hall ▸ read hreads fun e he => by simp [he]
  | passed hreads =>
    refine ⟨?_, by simp⟩
    rintro _ ⟨rfl⟩
    rw [Operation.slot, ← hinit]
    exact read hreads fun e he => by simp [he]
  | deleted hreads hwrites =>
    refine ⟨?_, ?_⟩
    · rintro _ ⟨rfl⟩
      rw [Operation.slot, ← hinit]
      exact read hreads fun e he => by simp [he]
    · rintro _ ⟨rfl⟩ changed hset
      rw [Operation.slot, ← hinit]
      exact write hwrites (fun e he => by simp [he]) (by simpa [hreads.not_set] using hset)

/-- If no key is evaluated more than once, each has one text. -/
theorem exists_steady (h : o.Changes n old? new? events)
    (honce : new? = none ∨ n = 1 ∧ o.readsFirst = false) (hconstants : .constants ∉ events) :
    ∃ root keys, keys.length = n ∧ ∀ e ∈ events, e.Steady root keys := by
  cases h with
  | assigned hwrites =>
    obtain ⟨rfl, -⟩ := honce.resolve_left (by simp)
    cases hwrites with
    | @member _ container _ _ text _ _ hreads _ hwrites =>
      cases hreads
      cases hwrites
      exact ⟨container, [text], rfl, by simp [Event.Steady]⟩
  | kept _ hreads => exact hreads.exists_steady hconstants
  | @reassigned _ op _ _ _ _ _ hop _ _ =>
    cases op with
    | plain => exact absurd rfl hop
    | _ => exact absurd honce (by simp [Operation.readsFirst])
  | updated | changed => exact absurd honce (by simp [Operation.readsFirst])
  | @passed n _ text reading hreads =>
    obtain ⟨root, keys, rfl, hsteady⟩ :=
      hreads.exists_steady fun h => hconstants (List.mem_cons_of_mem _ h)
    refine ⟨root, keys ++ [text], List.length_append, fun e he => ?_⟩
    obtain rfl | he := List.mem_cons.mp he
    · exact List.getElem?_concat_length
    · exact (hsteady e he).concat text
  | @deleted _ fields text _ _ hreads hwrites =>
    obtain ⟨hn, -⟩ := honce.resolve_left (by simp)
    cases Nat.succ.inj hn
    cases hreads
    cases hwrites
    exact ⟨.object fields, [text], rfl, by simp [Event.Steady]⟩
  | called hreads =>
    obtain ⟨root, keys, hkeys, hsteady⟩ := hreads.exists_steady (by simpa using hconstants)
    refine ⟨root, keys, hkeys, fun e he => ?_⟩
    obtain he | rfl : e ∈ _ ∨ e = .rest := by simpa [or_comm, or_left_comm] using he
    · exact hsteady e he
    · trivial

end Operation.Changes

/-- **How often a change of a member evaluates its keys.**  Let an operation on a member of a
variable at some keys end well.  If it writes nothing, each key has been evaluated once.  If it
writes, the last key has been evaluated once for that, and each one before it once more than the
next; and all of them once more if the operation reads the member first.  So each key is evaluated
exactly once exactly when nothing is written, or there is one key and the operation is a plain
assignment or a deletion; a plain or compound assignment, an increment and a decrement write always.

Where the variable keeps its value until it is set, and each key gives the same text whenever it is
evaluated, what is read is what stands at the path of these texts, and what is written is written at
the same path.  It is so where each key is evaluated once, unless the constants of mathematics are
read and no variable is. -/
theorem change_evaluates {v : Value} (hne : names ≠ [])
    (h : ((interp put depth).eval (o.expr (memberAt x names))).run s = (.ok v, t)) :
    ∃ old? new? events, o.Changes names.length old? new? events ∧
      Trace x names o.Rest events s t ∧
      (o.alwaysWrites = true → new?.isSome = true) ∧
      (∀ i < names.length, evaluations i events =
        if new?.isSome then names.length - i + (if o.readsFirst then 1 else 0) else 1) ∧
      ((∀ i < names.length, evaluations i events = 1) ↔
        new? = none ∨ names.length = 1 ∧ o.readsFirst = false) ∧
      ((∀ i < names.length, evaluations i events = 1) → .constants ∉ events →
        ∃ root keys, keys.length = names.length ∧ ∀ e ∈ events, e.Steady root keys) ∧
      ∀ (root : Value) (keys : List String), keys.length = names.length →
        (∀ e ∈ events, e.Steady root keys) →
        (∀ old, old? = some old → root.read (o.slot keys) = .ok old) ∧
        ∀ new, new? = some new → ∀ changed, .set changed ∈ events →
          root.write? (o.slot keys) new = some changed := by
  obtain ⟨old?, new?, events, hchanges, htrace⟩ := exists_changes hne h
  have honce := hchanges.once_iff (mt List.length_eq_zero_iff.mp hne)
  exact ⟨old?, new?, events, hchanges, htrace, hchanges.isSome_of_alwaysWrites,
    fun i hi => hchanges.evaluations_eq hi, honce, fun h => hchanges.exists_steady (honce.mp h),
    fun root keys hkeys hsteady => hchanges.slot_eq hkeys hsteady⟩

end

/-! ### Keys that change each time -/

/-- The key `i += '1'`. -/
def growingKey : Name := .computed (.assign (.compound .add) (.name "i") (.string "1"))

/-- A state with an object and the text of a key. -/
def grown (first second i : String) : State :=
  { State.initial .undefined none Session.empty 100 with
    scopes := [[("a", .object [("1", .string first), ("11", .string second)]), ("i", .string i)]] }

/-- The operation `+= '!'`. -/
def marking : Operation := .assign (.compound .add) (.string "!")

theorem change_evaluates_growing :
    ((interp put 4).eval (marking.expr (memberAt "a" [growingKey]))).run (grown "p" "q" "") =
        (.ok (.string "p!"), grown "p" "p!" "11") ∧
      ∃ events, Trace "a" [growingKey] marking.Rest events (grown "p" "q" "")
          (grown "p" "p!" "11") ∧
        evaluations 0 events = 2 := by
  have hne : [growingKey] ≠ [] := List.cons_ne_nil _ _
  have hrun : ((interp put 4).eval (marking.expr (memberAt "a" [growingKey]))).run
      (grown "p" "q" "") = (.ok (.string "p!"), grown "p" "p!" "11") := by rfl
  obtain ⟨_, _, events, -, htrace, hwrites, hevaluations, -⟩ := change_evaluates hne hrun
  refine ⟨hrun, events, htrace, ?_⟩
  rw [hevaluations 0 Nat.one_pos, hwrites rfl]
  rfl

/-- A script that does something with a member of an array, at a key that counts. -/
def countingScript (array change : String) : List Char :=
  ("var a = " ++ array ++ "; var i = 0; " ++ change ++ "; JSON.stringify(a) + ' ' + i").toList

theorem keys_evaluatedAgain :
    (run (countingScript "[[], []]" "a[i++].push(7)") .undefined none Session.empty 100).1.map
      Value.output = .ok "[[],[7]] 2" ∧
    (run (countingScript "[1, 5]" "a[i++] += 1") .undefined none Session.empty 100).1.map
      Value.output = .ok "[1,2] 2" ∧
    (run (countingScript "[1, 5, 9]" "a[i++]++") .undefined none Session.empty 100).1.map
      Value.output = .ok "[1,2,9] 2" ∧
    (run (countingScript "[[1], [5]]" "a[i++][0] = 7") .undefined none Session.empty 100).1.map
      Value.output = .ok "[[1],[7]] 2" := by
  decide +kernel

end Scrape.Script
