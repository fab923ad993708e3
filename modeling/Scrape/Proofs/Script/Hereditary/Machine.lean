import Scrape.Proofs.Script.Hereditary.Value
import Scrape.Proofs.Script.Watched

/-!
# Script — Hereditary — Machine

A property of values that is hereditary is kept by scripts.  Two machines hand it on (`HandsOn`) if,
from a state all of whose variables have the property, they do the same on each part of a script, as
long as what is bound, assigned, passed and put has the property; what they give has it then, and so
have the variables again.  They hand it on in all that is made of the parts.

Main statement (`runWatched_eq_of_hereditary`): a script that is run on a value with the property
gives one with it, and a watch that lets the property through sees nothing else in between.
-/

namespace Scrape.Script

open Run

variable {has : Value → Prop} {limit : Nat}

/-! ### States -/

/-- All variables have the property, and the limit of steps is the given one. -/
structure StateHas (has : Value → Prop) (limit : Nat) (s : State) : Prop where
  variable_mem : ∀ scope ∈ s.scopes, ∀ f ∈ scope, has f.2
  limit_eq : s.limit = limit

namespace StateHas

variable {s : State} {v : Value} {name : String}

theorem lasts (has : Value → Prop) (limit : Nat) : Lasts (StateHas has limit) where
  stepped hs := ⟨hs.variable_mem, hs.limit_eq⟩
  enter hs := ⟨List.forall_mem_cons.mpr ⟨List.forall_mem_nil _, hs.variable_mem⟩, hs.limit_eq⟩
  leave hs := ⟨fun scope hscope => hs.variable_mem scope (List.mem_of_mem_tail hscope), hs.limit_eq⟩

theorem lookup? (hs : StateHas has limit s) : ∀ v ∈ s.lookup? name, has v := by
  intro v hv
  obtain ⟨scope, hscope, hget⟩ := List.exists_of_findSome?_eq_some hv
  exact hs.variable_mem scope hscope _ (Keyed.mem_of_get? hget)

theorem mem_put {scope : Scope} (hscope : ∀ f ∈ scope, has f.2) (hv : has v) :
    ∀ f ∈ Keyed.put name v scope, has f.2 :=
  fun f hf => (Keyed.mem_put hf).elim (fun heq => heq ▸ hv) (hscope f)

theorem mem_setIn {scopes : List Scope} (h : ∀ scope ∈ scopes, ∀ f ∈ scope, has f.2) (hv : has v) :
    ∀ scope ∈ State.setIn name v scopes, ∀ f ∈ scope, has f.2 := by
  fun_induction State.setIn name v scopes with
  | case1 => exact h
  | case2 outermost =>
    exact List.forall_mem_singleton.mpr (mem_put (List.forall_mem_singleton.mp h) hv)
  | case3 scope r _ hhas =>
    obtain ⟨hscope, hr⟩ := List.forall_mem_cons.mp h
    exact List.forall_mem_cons.mpr ⟨mem_put hscope hv, hr⟩
  | case4 scope r _ hhas ih =>
    obtain ⟨hscope, hr⟩ := List.forall_mem_cons.mp h
    exact List.forall_mem_cons.mpr ⟨hscope, ih hr⟩

theorem declare (hs : StateHas has limit s) (hv : has v) :
    StateHas has limit (s.declare name v) := by
  obtain ⟨hvariables, hlimit⟩ := hs
  refine ⟨?_, (State.limit_declare name v s).trans hlimit⟩
  obtain ⟨_, scopes, _, _, _, _⟩ := s
  cases scopes with
  | nil => exact hvariables
  | cons inner r =>
    obtain ⟨hinner, hr⟩ := List.forall_mem_cons.mp hvariables
    exact List.forall_mem_cons.mpr ⟨mem_put hinner hv, hr⟩

theorem setVar (hs : StateHas has limit s) (hv : has v) : StateHas has limit (s.setVar name v) :=
  ⟨mem_setIn hs.variable_mem hv, hs.limit_eq⟩

end StateHas

/-- What a statement ends with has the property. -/
def FlowHas (has : Value → Prop) (flow : Flow) : Prop := ∀ v, flow = .give v → has v

/-- Two runs do the same from states that have the property, and what they give is so. -/
abbrev Hands (has : Value → Prop) (limit : Nat) {α : Type} (P : α → Prop) (m m' : Run α) : Prop :=
  Sustains (StateHas has limit) P m m'

/-! ### Runs that are not put together from parts of a script -/

namespace Hands

variable {α : Type} {P : α → Prop}

theorem fault (f : Fault) : Hands has limit P (Run.fault f) (Run.fault f) := Sustains.throw _

theorem ofOutcome {o : Outcome α} (h : ∀ a, o = .ok a → P a) :
    Hands has limit P (Run.ofOutcome o) (Run.ofOutcome o) := by
  cases o with
  | ok a => exact Sustains.pure (h a rfl)
  | error f => exact Sustains.throw _

theorem lookup? (name : String) :
    Hands has limit (fun v? => ∀ v ∈ v?, has v) (Run.lookup? name) (Run.lookup? name) :=
  Sustains.refl fun _ _ _ hs hrun => by
    cases hrun
    exact ⟨hs, fun v? hv => by cases hv; exact hs.lookup?⟩

theorem setVar (declare : Bool) (name : String) {v : Value} (hv : has v) :
    Hands has limit (fun _ => True) (Run.setVar declare name v) (Run.setVar declare name v) := by
  refine Sustains.refl fun s o t hs hrun => ⟨?_, fun _ _ => trivial⟩
  cases hrun
  cases declare with
  | false => exact hs.setVar hv
  | true => exact hs.declare hv

theorem sessionValue (key : String) :
    Hands has limit (fun _ => True) (Run.sessionValue key) (Run.sessionValue key) :=
  Sustains.refl fun _ _ _ hs hrun => by
    cases hrun
    exact ⟨hs, fun _ _ => trivial⟩

theorem put (key : String) (v : Value) :
    Hands has limit (fun _ => True) (Run.put key v) (Run.put key v) :=
  Sustains.refl fun _ _ _ hs hrun => by
    cases hrun
    exact ⟨⟨hs.variable_mem, hs.limit_eq⟩, fun _ _ => trivial⟩

theorem tick : Hands has limit (fun _ => True) Run.tick Run.tick :=
  Sustains.tick (StateHas.lasts has limit)

theorem isMath (e : Expr) :
    Hands has limit (fun _ => True) (Interp.isMath e) (Interp.isMath e) := by
  unfold Interp.isMath
  split
  · exact (lookup? _).bind fun _ _ => Sustains.pure trivial
  · exact Sustains.pure trivial

theorem namespaceOf? (e : Expr) :
    Hands has limit (fun _ => True) (Interp.namespaceOf? e) (Interp.namespaceOf? e) := by
  unfold Interp.namespaceOf?
  split
  · exact (lookup? _).bind fun _ _ => by split <;> exact Sustains.pure trivial
  · exact Sustains.pure trivial

theorem callback (args : List Value) :
    Hands has limit (fun _ => True) (Interp.callback args) (Interp.callback args) := by
  unfold Interp.callback
  split
  · exact Sustains.pure trivial
  · exact fault _

section

variable (h : Hereditary has)

include h

theorem newFunction (params : List Binding) (body : Body) :
    Hands has limit has (Run.newFunction params body) (Run.newFunction params body) :=
  Sustains.refl fun _ _ _ hs hrun => by
    cases hrun
    exact ⟨⟨hs.variable_mem, hs.limit_eq⟩, fun v hv => by cases hv; exact h.function _ _ _⟩

theorem valueOf (name : String) : Hands has limit has (Run.valueOf name) (Run.valueOf name) := by
  refine (lookup? name).bind fun v? hv => ?_
  split
  · exact Sustains.pure (hv _ rfl)
  · split
    · exact Sustains.pure h.undefined
    · exact Sustains.pure (h.number _)
    · exact Sustains.pure (h.number _)
    · exact fault _

theorem itemsOf {v : Value} (hv : has v) :
    Hands has limit (fun items => ∀ w ∈ items, has w) (Interp.itemsOf v) (Interp.itemsOf v) := by
  unfold Interp.itemsOf
  split
  · rename_i items hitems
    exact Sustains.pure (h.items hv hitems)
  · exact fault _

theorem hoist (body : List Stmt) :
    Hands has limit (fun _ => True) (Interp.hoist body) (Interp.hoist body) := by
  fun_induction Interp.hoist body with
  | case1 => exact Sustains.pure trivial
  | case2 name params body r ih =>
    exact (newFunction h _ _).bind fun f hf => (setVar _ _ hf).bind fun _ _ => ih
  | case3 s r _ ih => exact ih

end

end Hands

/-! ### Machines -/

/-- Two machines hand on a hereditary property: on each part of a script they do the same from
states that have it, if the values that they are given have it. -/
structure HandsOn (has : Value → Prop) (limit : Nat) (i i' : Interp) : Prop where
  hereditary : Hereditary has
  eval (e : Expr) : Hands has limit has (i.eval e) (i'.eval e)
  exec (s : Stmt) : Hands has limit (FlowHas has) (i.exec s) (i'.exec s)
  bind (declare : Bool) (b : Binding) {v : Value} : has v →
    Hands has limit (fun _ => True) (i.bind declare b v) (i'.bind declare b v)
  assign (e : Expr) {v : Value} : has v →
    Hands has limit (fun _ => True) (i.assign e v) (i'.assign e v)
  call (params : List Binding) (body : Body) {args : List Value} : (∀ v ∈ args, has v) →
    Hands has limit has (i.call params body args) (i'.call params body args)
  put (key : String) (v : Value) :
    Hands has limit (fun _ => True) (i.put key v) (i'.put key v)

namespace HandsOn

variable {self self' : Interp} (h : HandsOn has limit self self')

include h

/-! ### Lists and names -/

theorem callValue (f : Value) {args : List Value} (hargs : ∀ v ∈ args, has v) :
    Hands has limit has (self.callValue f args) (self'.callValue f args) := by
  unfold Interp.callValue
  split
  · exact h.call _ _ hargs
  · exact Hands.fault _

theorem evalItems {acc : List Value} (hacc : ∀ v ∈ acc, has v) (items : List Expr) :
    Hands has limit (fun values => ∀ v ∈ values, has v) (self.evalItems acc items)
      (self'.evalItems acc items) := by
  fun_induction self.evalItems acc items with
  | case1 acc => exact Sustains.pure fun v hv => hacc v (List.mem_reverse.mp hv)
  | case2 acc e r ih =>
    refine (h.eval e).bind fun v hv => (Hands.itemsOf h.hereditary hv).bind fun items hitems =>
      ih items ?_
    exact List.forall_mem_append.mpr ⟨fun v hv => hitems v (List.mem_reverse.mp hv), hacc⟩
  | case3 acc r ih => exact ih (List.forall_mem_cons.mpr ⟨h.hereditary.undefined, hacc⟩)
  | case4 acc e r hs hh ih =>
    rw [Interp.evalItems]
    · exact (h.eval e).bind fun v hv => ih v (List.forall_mem_cons.mpr ⟨hv, hacc⟩)
    · exact hs
    · exact hh

theorem args (items : List Expr) :
    Hands has limit (fun values => ∀ v ∈ values, has v) (self.evalItems [] items)
      (self'.evalItems [] items) :=
  h.evalItems (List.forall_mem_nil _) items

theorem keyOf (otherwise : Form) (name : Name) :
    Hands has limit (fun _ => True) (self.keyOf otherwise name) (self'.keyOf otherwise name) := by
  cases name with
  | text s     => exact Sustains.pure trivial
  | number x   => exact Sustains.pure trivial
  | computed e => exact (h.eval e).bind fun v _ => Sustains.pure trivial
  | other      => exact Hands.fault _

theorem memberKey (name : Name) :
    Hands has limit (fun _ => True) (self.memberKey name) (self'.memberKey name) :=
  h.keyOf .memberAccess name

theorem propertyKey (name : Name) :
    Hands has limit (fun _ => True) (self.propertyKey name) (self'.propertyKey name) :=
  h.keyOf .propertyName name

theorem evalTemplate (acc : String) (texts : List String) (parts : List Expr) :
    Hands has limit (fun _ => True) (self.evalTemplate acc texts parts)
      (self'.evalTemplate acc texts parts) := by
  fun_induction self.evalTemplate acc texts parts with
  | case1 acc => exact Sustains.pure trivial
  | case2 acc t ts => exact Sustains.pure trivial
  | case3 acc t ts e r =>
    rename_i ih
    exact (h.eval e).bind fun v _ =>
      (Hands.ofOutcome fun _ _ => trivial).bind fun s (_ : True) => ih s

theorem evalFields {acc : List (String × Value)} (hacc : has (.object acc)) (fields : List Field) :
    Hands has limit (fun fs => has (.object fs)) (self.evalFields acc fields)
      (self'.evalFields acc fields) := by
  induction fields generalizing acc with
  | nil => exact Sustains.pure hacc
  | cons f r ih =>
    cases f with
    | value name e =>
      exact (h.propertyKey name).bind fun key _ => (h.eval e).bind fun v hv =>
        ih (h.hereditary.put key hacc hv)
    | shorthand n =>
      exact (Hands.valueOf h.hereditary n).bind fun v hv => ih (h.hereditary.put n hacc hv)
    | method name params body =>
      exact (h.propertyKey name).bind fun key _ =>
        (Hands.newFunction h.hereditary _ _).bind fun f hf => ih (h.hereditary.put key hacc hf)
    | spread e =>
      refine (h.eval e).bind fun v hv => ?_
      split
      · exact ih (h.hereditary.putAll hacc (h.hereditary.field hv))
      · refine ih (h.hereditary.putAll hacc fun f hf => ?_)
        obtain ⟨i, hi, rfl⟩ := List.mem_mapIdx.mp hf
        exact h.hereditary.item hv (List.getElem_mem hi)
      · exact ih hacc
    | shorthandDefault => exact Hands.fault _
    | other => exact Hands.fault _

/-! ### Members and assignment -/

theorem putBack (place : Expr) {v : Value} (hv : has v) :
    Hands has limit (fun _ => True) (self.putBack place v) (self'.putBack place v) := by
  unfold Interp.putBack
  split
  · exact h.assign place hv
  · exact Sustains.pure trivial

theorem assignMember (object : Expr) (name : Name) {v : Value} (hv : has v) :
    Hands has limit (fun _ => True) (self.assignMember object name v)
      (self'.assignMember object name v) := by
  refine (h.memberKey name).bind fun key _ => (h.eval object).bind fun container hcontainer => ?_
  split
  · rename_i changed hset
    exact h.putBack _ (h.hereditary.set? hcontainer hv hset)
  · exact Hands.fault _

theorem assignBody (target : Expr) {v : Value} (hv : has v) :
    Hands has limit (fun _ => True) (self.assignBody target v) (self'.assignBody target v) := by
  unfold Interp.assignBody
  split
  · exact Hands.setVar _ _ hv
  · exact h.assignMember _ _ hv
  · exact h.assign _ hv
  · exact Hands.fault _

theorem evalMember (object : Expr) (name : Name) :
    Hands has limit has (self.evalMember object name) (self'.evalMember object name) := by
  refine (Hands.isMath object).bind fun math _ => ?_
  split
  · exact (h.memberKey name).bind fun key _ => Sustains.pure (h.hereditary.mathConstant key)
  · refine (h.eval object).bind fun target htarget => (h.memberKey name).bind fun key _ => ?_
    have hget := h.hereditary.get htarget key
    split
    · exact Sustains.bind (P := fun _ => True) (Hands.fault _) fun _ _ => Sustains.pure hget
    · exact Sustains.pure hget

theorem deleteMember (object : Expr) (name : Name) :
    Hands has limit (fun _ => True) (self.deleteMember object name)
      (self'.deleteMember object name) := by
  refine (h.memberKey name).bind fun key _ => (h.eval object).bind fun v hv => ?_
  split
  · exact h.putBack _ (h.hereditary.erase key hv)
  · exact Sustains.pure trivial

theorem readTarget (target : Binding) :
    Hands has limit has (self.readTarget target) (self'.readTarget target) := by
  unfold Interp.readTarget
  split
  · exact Hands.valueOf h.hereditary _
  · exact h.evalMember _ _
  · exact h.eval _
  · exact Hands.fault _

theorem writeTarget (target : Binding) {v : Value} (hv : has v) :
    Hands has limit (fun _ => True) (self.writeTarget target v) (self'.writeTarget target v) := by
  unfold Interp.writeTarget
  split
  · exact Hands.setVar _ _ hv
  · exact h.assignMember _ _ hv
  · exact h.assign _ hv
  · exact h.bind _ _ hv
  · exact h.bind _ _ hv
  · exact Hands.fault _

theorem assignedValue (op : AssignOp) (target : Binding) (e : Expr) :
    Hands has limit (fun r => has (r.elim id id)) (self.assignedValue op target e)
      (self'.assignedValue op target e) := by
  have assignedIf (p : Value → Bool) :
      Hands has limit (α := Value ⊕ Value) (fun r => has (r.elim id id))
        (do let old ← self.readTarget target
            if p old then return .inl (← self.eval e) else return .inr old)
        (do let old ← self'.readTarget target
            if p old then return .inl (← self'.eval e) else return .inr old) := by
    refine (h.readTarget target).bind fun old hold => ?_
    split
    · exact (h.eval e).bind fun v hv => Sustains.pure hv
    · exact Sustains.pure hold
  cases op with
  | plain => exact (h.eval e).bind fun v hv => Sustains.pure hv
  | and => exact assignedIf _
  | or => exact assignedIf _
  | nullish => exact assignedIf _
  | compound op =>
    exact (h.readTarget target).bind fun old _ => (h.eval e).bind fun v _ =>
      (Hands.ofOutcome fun _ hw => h.hereditary.apply hw).bind fun w hw => Sustains.pure hw

theorem evalAssign (op : AssignOp) (target : Binding) (e : Expr) :
    Hands has limit has (self.evalAssign op target e) (self'.evalAssign op target e) := by
  refine (h.assignedValue op target e).bind fun r hr => ?_
  cases r with
  | inr v => exact Sustains.pure hr
  | inl v => exact (h.writeTarget target hr).bind fun _ _ => Sustains.pure hr

theorem evalUpdate (before up : Bool) (operand : Expr) :
    Hands has limit has (self.evalUpdate before up operand)
      (self'.evalUpdate before up operand) :=
  (h.eval operand).bind fun _ _ => (h.assign operand (h.hereditary.number _)).bind fun _ _ =>
    Sustains.pure (h.hereditary.number _)

/-! ### Patterns -/

theorem bindItems (declare : Bool) {v : Value} (hv : has v) (i : Nat) (items : List Binding) :
    Hands has limit (fun _ => True) (self.bindItems declare v i items)
      (self'.bindItems declare v i items) := by
  have rest (i : Nat) (b : Binding) (r : List Binding) :
      Hands has limit (fun _ => True) (self.bindItems declare v i (.rest b :: r))
        (self'.bindItems declare v i (.rest b :: r)) := by
    cases v with
    | array l =>
      exact h.bind _ _ (h.hereditary.array_iff.mpr fun w hw =>
        h.hereditary.item hv (List.mem_of_mem_drop hw))
    | _ => exact h.bind _ _ (h.hereditary.array_iff.mpr (List.forall_mem_nil _))
  fun_induction self.bindItems declare v i items with
  | case1 => exact Sustains.pure trivial
  | case2 i r ih => exact ih
  | case3 i b r => exact rest i b r
  | case4 i b r hh hr ih =>
    rw [Interp.bindItems]
    · exact (h.bind _ _ (h.hereditary.get hv _)).bind fun _ _ => ih
    · exact hh
    · exact hr

theorem bindFields (declare : Bool) {v : Value} (hv : has v) (fields : List FieldBinding) :
    Hands has limit (fun _ => True) (self.bindFields declare v fields)
      (self'.bindFields declare v fields) := by
  induction fields with
  | nil => exact Sustains.pure trivial
  | cons f r ih =>
    cases f with
    | shorthand n default? =>
      unfold Interp.bindFields
      dsimp only
      split
      · exact (h.eval _).bind fun w hw => (Hands.setVar _ _ hw).bind fun _ _ => ih
      · exact (Sustains.pure (h.hereditary.get hv n)).bind fun w hw =>
          (Hands.setVar _ _ hw).bind fun _ _ => ih
    | named name b =>
      exact (h.propertyKey name).bind fun key _ =>
        (h.bind _ _ (h.hereditary.get hv key)).bind fun _ _ => ih
    | rest b => exact Sustains.bind (P := fun _ => True) (Hands.fault _) fun _ _ => ih

theorem bindBody (declare : Bool) (target : Binding) {v : Value} (hv : has v) :
    Hands has limit (fun _ => True) (self.bindBody declare target v)
      (self'.bindBody declare target v) := by
  cases target with
  | name n => exact Hands.setVar _ _ hv
  | array items => exact h.bindItems _ hv _ _
  | object fields => exact h.bindFields _ hv _
  | withDefault b e =>
    unfold Interp.bindBody
    dsimp only
    split
    · exact (h.eval e).bind fun w hw => h.bind _ _ hw
    · exact (Sustains.pure hv).bind fun w hw => h.bind _ _ hw
  | place e =>
    unfold Interp.bindBody
    dsimp only
    split
    · exact Hands.fault _
    · exact h.assign _ hv
  | hole => exact Hands.fault _
  | rest b => exact Hands.fault _
  | other => exact Hands.fault _

theorem declareAll (decls : List Declarator) :
    Hands has limit (fun _ => True) (self.declareAll decls) (self'.declareAll decls) := by
  induction decls with
  | nil => exact Sustains.pure trivial
  | cons d r ih =>
    obtain ⟨target, init⟩ := d
    cases init with
    | none =>
      exact (Sustains.pure h.hereditary.undefined).bind fun v hv =>
        (h.bind _ _ hv).bind fun _ _ => ih
    | some e => exact (h.eval e).bind fun v hv => (h.bind _ _ hv).bind fun _ _ => ih

/-! ### Methods that call functions -/

omit h in
theorem afterAll (hereditary : Hereditary has) (name : String) {acc : List Value}
    (hacc : ∀ v ∈ acc, has v) : has (Interp.afterAll name acc) := by
  have hkept : has (.array acc.reverse) :=
    hereditary.array_iff.mpr fun v hv => hacc v (List.mem_reverse.mp hv)
  unfold Interp.afterAll
  split
  · exact hkept
  · exact hkept
  · exact hereditary.number _
  · exact hereditary.bool _
  · exact hereditary.bool _
  · exact hereditary.undefined

omit h in
theorem afterCall (hereditary : Hereditary has) (name : String) (i : Nat) {item out : Value}
    (hitem : has item) (hout : has out) {acc : List Value} (hacc : ∀ v ∈ acc, has v) :
    (Interp.afterCall name i item out acc).elim has fun kept => ∀ v ∈ kept, has v := by
  have keep {v : Value} (hv : has v) : ∀ w ∈ v :: acc, has w :=
    List.forall_mem_cons.mpr ⟨hv, hacc⟩
  unfold Interp.afterCall
  -- mapping keeps what the call gave, filtering the item; the others stop or go on
  split
  · exact keep hout
  · split
    · exact keep hitem
    · exact hacc
  · split
    · exact hitem
    · exact hacc
  · split
    · exact hereditary.number _
    · exact hacc
  · split
    · exact hereditary.bool _
    · exact hacc
  · split
    · exact hacc
    · exact hereditary.bool _
  · exact hacc

theorem callEach (name : String) (f : Value) {whole : List Value} (hwhole : has (.array whole))
    {acc : List Value} (hacc : ∀ v ∈ acc, has v) (i : Nat) {items : List Value}
    (hitems : ∀ v ∈ items, has v) :
    Hands has limit has (self.callEach name f whole acc i items)
      (self'.callEach name f whole acc i items) := by
  induction items generalizing acc i with
  | nil => exact Sustains.pure (afterAll h.hereditary name hacc)
  | cons item r ih =>
    obtain ⟨hitem, hr⟩ := List.forall_mem_cons.mp hitems
    have hargs : ∀ v ∈ [item, .ofNat i, .array whole], has v :=
      List.forall_mem_cons.mpr ⟨hitem, List.forall_mem_cons.mpr
        ⟨h.hereditary.number _, List.forall_mem_singleton.mpr hwhole⟩⟩
    refine (h.callValue f hargs).bind fun out hout => ?_
    have hstep := afterCall h.hereditary name i hitem hout hacc
    split
    · rename_i v hv
      rw [hv] at hstep
      exact Sustains.pure hstep
    · rename_i kept hkept
      rw [hkept] at hstep
      exact ih hstep _ hr

theorem fold (f : Value) {acc : Value} (hacc : has acc) (i : Nat) {items : List Value}
    (hitems : ∀ v ∈ items, has v) :
    Hands has limit has (self.fold f acc i items) (self'.fold f acc i items) := by
  induction items generalizing acc i with
  | nil => exact Sustains.pure hacc
  | cons item r ih =>
    obtain ⟨hitem, hr⟩ := List.forall_mem_cons.mp hitems
    have hargs : ∀ v ∈ [acc, item, .ofNat i], has v :=
      List.forall_mem_cons.mpr ⟨hacc, List.forall_mem_cons.mpr
        ⟨hitem, List.forall_mem_singleton.mpr (h.hereditary.number _)⟩⟩
    exact (h.callValue f hargs).bind fun v hv => ih hv _ hr

theorem reduce (f : Value) {items args : List Value} (hitems : ∀ v ∈ items, has v)
    (hargs : ∀ v ∈ args, has v) :
    Hands has limit has (self.reduce f items args) (self'.reduce f items args) := by
  unfold Interp.reduce
  split
  · rename_i init items hinit
    exact h.fold _ (hargs _ (List.mem_of_getElem? hinit)) _ hitems
  · obtain ⟨hfirst, hr⟩ := List.forall_mem_cons.mp hitems
    exact h.fold _ hfirst _ hr
  · exact Hands.fault _

theorem comesAfter (comparator? : Option Value) {a b : Value} (ha : has a) (hb : has b) :
    Hands has limit (fun _ => True) (self.comesAfter comparator? a b)
      (self'.comesAfter comparator? a b) := by
  unfold Interp.comesAfter
  split
  · exact (h.call _ _ (List.forall_mem_cons.mpr ⟨ha, List.forall_mem_singleton.mpr hb⟩)).bind
      fun v _ => Sustains.pure trivial
  · exact Hands.tick.bind fun _ _ => Sustains.pure trivial

theorem insertSorted (comparator? : Option Value) {item : Value} (hitem : has item)
    {passed sorted : List Value} (hpassed : ∀ v ∈ passed, has v) (hsorted : ∀ v ∈ sorted, has v) :
    Hands has limit (fun l => ∀ v ∈ l, has v)
      (self.insertSorted comparator? item passed sorted)
      (self'.insertSorted comparator? item passed sorted) := by
  have passedFirst {passed l : List Value} (hpassed : ∀ v ∈ passed, has v) (hl : ∀ v ∈ l, has v) :
      ∀ v ∈ passed.reverse ++ l, has v :=
    List.forall_mem_append.mpr ⟨fun v hv => hpassed v (List.mem_reverse.mp hv), hl⟩
  induction sorted generalizing passed with
  | nil => exact Sustains.pure (passedFirst hpassed (List.forall_mem_singleton.mpr hitem))
  | cons last r ih =>
    obtain ⟨hlast, hr⟩ := List.forall_mem_cons.mp hsorted
    refine (h.comesAfter comparator? hlast hitem).bind fun after _ => ?_
    split
    · exact ih (List.forall_mem_cons.mpr ⟨hlast, hpassed⟩) hr
    · exact Sustains.pure (passedFirst hpassed (List.forall_mem_cons.mpr ⟨hitem, hsorted⟩))

theorem sortInto (comparator? : Option Value) {sorted items : List Value}
    (hsorted : ∀ v ∈ sorted, has v) (hitems : ∀ v ∈ items, has v) :
    Hands has limit (fun l => ∀ v ∈ l, has v) (self.sortInto comparator? sorted items)
      (self'.sortInto comparator? sorted items) := by
  induction items generalizing sorted with
  | nil => exact Sustains.pure fun v hv => hsorted v (List.mem_reverse.mp hv)
  | cons item r ih =>
    obtain ⟨hitem, hr⟩ := List.forall_mem_cons.mp hitems
    exact (h.insertSorted comparator? hitem (List.forall_mem_nil _) hsorted).bind
      fun l hl => ih hl hr

theorem arrayMethod {items : List Value} (hitems : has (.array items)) (name : String)
    {args : List Value} (hargs : ∀ v ∈ args, has v) :
    Hands has limit (fun reply => has reply.value ∧ ∀ changed ∈ reply.changed?, has changed)
      (self.arrayMethod items name args) (self'.arrayMethod items name args) := by
  have heach := h.hereditary.array_iff.mp hitems
  have plain {v : Value} (hv : has v) :
      has (Reply.plain v).value ∧ ∀ changed ∈ (Reply.plain v).changed?, has changed :=
    ⟨hv, nofun⟩
  unfold Interp.arrayMethod
  split
  · refine (h.sortInto _ (List.forall_mem_nil _) heach).bind fun sorted hsorted => ?_
    have hlist : has (.array sorted) := h.hereditary.array_iff.mpr hsorted
    exact Sustains.pure ⟨hlist, fun changed hchanged => by cases hchanged; exact hlist⟩
  · split
    · exact (Hands.callback args).bind fun f _ => (h.reduce f heach hargs).bind fun v hv =>
        Sustains.pure (plain hv)
    · split
      · exact (Hands.callback args).bind fun f _ =>
          (h.callEach name f hitems (List.forall_mem_nil _) 0 heach).bind fun v hv =>
            Sustains.pure (plain hv)
      · split
        · rename_i outcome houtcome
          exact Hands.ofOutcome fun reply hreply =>
            h.hereditary.listMethod? hitems hargs (hreply ▸ houtcome)
        · exact Hands.fault _

theorem replacement (f : Value) (s : String) (m : Pattern.Match) :
    Hands has limit (fun _ => True) (self.replacement f s m) (self'.replacement f s m) := by
  refine (h.callValue f (List.forall_mem_append.mpr ⟨fun v hv => ?_, ?_⟩)).bind fun _ _ =>
    Sustains.pure trivial
  · obtain ⟨group, -, rfl⟩ := List.mem_map.mp hv
    cases group with
    | none => exact h.hereditary.undefined
    | some text => exact h.hereditary.ofChars _
  · exact List.forall_mem_cons.mpr
      ⟨h.hereditary.number _, List.forall_mem_singleton.mpr (h.hereditary.string s)⟩

theorem replacements (f : Value) (s : String) (acc : List (Pattern.Match × List Char))
    (found : List Pattern.Match) :
    Hands has limit (fun _ => True) (self.replacements f s acc found)
      (self'.replacements f s acc found) := by
  induction found generalizing acc with
  | nil => exact Sustains.pure trivial
  | cons m ms ih => exact (h.replacement f s m).bind fun text _ => ih _

theorem replaceByCalls (s : String) (all : Bool) (f : Value) (args : List Value) :
    Hands has limit has (self.replaceByCalls s all f args)
      (self'.replaceByCalls s all f args) :=
  (Hands.ofOutcome fun _ _ => trivial).bind fun _ (_ : True) =>
    (h.replacements f s [] _).bind fun _ _ => Sustains.pure (h.hereditary.ofChars _)

theorem stringMethod (s name : String) (args : List Value) :
    Hands has limit has (self.stringMethod s name args) (self'.stringMethod s name args) := by
  unfold Interp.stringMethod
  split
  · exact h.replaceByCalls _ _ _ _
  · exact h.replaceByCalls _ _ _ _
  · exact Hands.ofOutcome fun v hv => h.hereditary.textMethod hv

theorem objectMethod (fields : List (String × Value)) (name : String) {args : List Value}
    (hargs : ∀ v ∈ args, has v) :
    Hands has limit has (self.objectMethod fields name args)
      (self'.objectMethod fields name args) := by
  unfold Interp.objectMethod
  split
  · exact h.call _ _ hargs
  · split
    · exact Sustains.pure (h.hereditary.bool _)
    · exact Sustains.pure (h.hereditary.string _)
    · exact Hands.fault _

theorem callMethod {target : Value} (htarget : has target) (name : String) {args : List Value}
    (hargs : ∀ v ∈ args, has v) :
    Hands has limit (fun reply => has reply.value ∧ ∀ changed ∈ reply.changed?, has changed)
      (self.callMethod target name args) (self'.callMethod target name args) := by
  have plain {m m' : Run Value} (hm : Hands has limit has m m') :
      Hands has limit (fun reply => has reply.value ∧ ∀ changed ∈ reply.changed?, has changed)
        (Reply.plain <$> m) (Reply.plain <$> m') :=
    hm.bind fun v hv => Sustains.pure ⟨hv, nofun⟩
  have other (v : Value) :
      Hands has limit (fun reply => has reply.value ∧ ∀ changed ∈ reply.changed?, has changed)
        (if (name = "toString" && !v.isNullish) = true then return Reply.plain (.string v.text)
          else Run.fault (.uncallable name v.text))
        (if (name = "toString" && !v.isNullish) = true then return Reply.plain (.string v.text)
          else Run.fault (.uncallable name v.text)) := by
    split
    · exact Sustains.pure ⟨h.hereditary.string _, nofun⟩
    · exact Hands.fault _
  cases target with
  | string s => exact plain (h.stringMethod s name args)
  | array items => exact h.arrayMethod htarget name hargs
  | regex source flags =>
    exact plain (Hands.ofOutcome fun v hv => h.hereditary.regexMethod hv)
  | number x => exact plain (Hands.ofOutcome fun v hv => h.hereditary.numberMethod hv)
  | object fields => exact plain (h.objectMethod fields name hargs)
  | function id params body =>
    unfold Interp.callMethod
    dsimp only
    split
    · exact plain (h.call _ _ fun v hv => hargs v (List.mem_of_mem_drop hv))
    · exact other _
  | undefined => exact other _
  | null => exact other _
  | bool b => exact other _

theorem callNamespace (space name : String) {args : List Value} (hargs : ∀ v ∈ args, has v) :
    Hands has limit has (self.callNamespace space name args)
      (self'.callNamespace space name args) := by
  unfold Interp.callNamespace
  split
  · exact (Hands.sessionValue _).bind fun s _ => Sustains.pure (h.hereditary.string s)
  · split
    · exact (h.put _ _).bind fun _ _ => Sustains.pure (h.hereditary.argument hargs 1)
    · split
      · exact Sustains.pure h.hereditary.undefined
      · exact Hands.ofOutcome fun v hv => h.hereditary.namespaceFunction hargs hv

/-! ### Calls -/

theorem evalMethodCall (object : Expr) (member : Name) (args : List Expr) :
    Hands has limit has (self.evalMethodCall object member args)
      (self'.evalMethodCall object member args) := by
  refine (h.memberKey member).bind fun name _ => (Hands.namespaceOf? object).bind fun space? _ => ?_
  split
  · exact (h.args args).bind fun vs hvs => h.callNamespace _ name hvs
  · refine (h.eval object).bind fun target htarget => (h.args args).bind fun vs hvs =>
      (h.callMethod htarget name hvs).bind fun reply ⟨hvalue, hchanged⟩ => ?_
    split
    · rename_i changed heq
      exact (h.putBack _ (hchanged _ heq)).bind fun _ _ => Sustains.pure hvalue
    · exact Sustains.pure hvalue

theorem evalCall (callee : Expr) (args : List Expr) :
    Hands has limit has (self.evalCall callee args) (self'.evalCall callee args) := by
  have evaluated : Hands has limit has
      (do let f ← self.eval callee; self.callValue f (← self.evalItems [] args))
      (do let f ← self'.eval callee; self'.callValue f (← self'.evalItems [] args)) :=
    (h.eval callee).bind fun f _ => (h.args args).bind fun vs hvs => h.callValue f hvs
  unfold Interp.evalCall
  split
  · exact h.evalMethodCall _ _ _
  · refine (Hands.lookup? _).bind fun v? _ => ?_
    split
    · exact (h.args args).bind fun vs hvs =>
        Hands.ofOutcome fun v hv => h.hereditary.globalFunction hvs hv
    · exact evaluated
  · exact evaluated

theorem evalConstruct (callee : Expr) (args : List Expr) :
    Hands has limit has (self.evalConstruct callee args) (self'.evalConstruct callee args) := by
  refine (h.args args).bind fun vs hvs => ?_
  split
  · exact Hands.ofOutcome fun v hv => h.hereditary.globalFunction hvs hv
  · exact Hands.fault _

/-! ### Expressions -/

theorem evalUnary (op : UnaryOp) (operand : Expr) :
    Hands has limit has (self.evalUnary op operand) (self'.evalUnary op operand) := by
  unfold Interp.evalUnary
  split
  · refine (Hands.lookup? _).bind fun v? _ => ?_
    split
    · exact Sustains.pure (h.hereditary.string _)
    · exact (Hands.valueOf h.hereditary _).bind fun v _ => Sustains.pure (h.hereditary.string _)
  · exact (h.deleteMember _ _).bind fun _ _ => Sustains.pure (h.hereditary.bool _)
  · exact Sustains.pure (h.hereditary.bool _)
  · exact (h.eval _).bind fun v _ => Sustains.pure (h.hereditary.unary _ v)

theorem evalBinary (op : BinaryOp) (left right : Expr) :
    Hands has limit has (self.evalBinary op left right) (self'.evalBinary op left right) := by
  refine (h.eval left).bind fun v hv => ?_
  split
  · split
    · exact h.eval right
    · exact Sustains.pure hv
  · split
    · exact Sustains.pure hv
    · exact h.eval right
  · split
    · exact h.eval right
    · exact Sustains.pure hv
  · exact (h.eval right).bind fun w _ => Hands.ofOutcome fun _ hr => h.hereditary.apply hr

theorem evalSequence {last : Value} (hlast : has last) (parts : List Expr) :
    Hands has limit has (self.evalSequence last parts) (self'.evalSequence last parts) := by
  induction parts generalizing last with
  | nil => exact Sustains.pure hlast
  | cons e r ih => exact (h.eval e).bind fun v hv => ih hv

/-- Machines that hand on the property in the parts of an expression do so in the expression. -/
theorem evalBody (e : Expr) : Hands has limit has (self.evalBody e) (self'.evalBody e) := by
  cases e with
  | number x => exact Sustains.pure (h.hereditary.number x)
  | string s => exact Sustains.pure (h.hereditary.string s)
  | bool b => exact Sustains.pure (h.hereditary.bool b)
  | null => exact Sustains.pure h.hereditary.null
  | regex source flags => exact Sustains.pure (h.hereditary.plain rfl)
  | name n => exact Hands.valueOf h.hereditary n
  | paren e => exact h.eval e
  | template texts parts =>
    exact (h.evalTemplate "" texts parts).bind fun s _ => Sustains.pure (h.hereditary.string s)
  | array items =>
    exact (h.args items).bind fun vs hvs => Sustains.pure (h.hereditary.array_iff.mpr hvs)
  | object fields =>
    exact (h.evalFields h.hereditary.empty fields).bind fun fs hfs => Sustains.pure hfs
  | unary op e => exact h.evalUnary op e
  | update before up e => exact h.evalUpdate before up e
  | binary op a b => exact h.evalBinary op a b
  | assign op target e => exact h.evalAssign op target e
  | conditional test yes no =>
    refine (h.eval test).bind fun v _ => ?_
    split
    · exact h.eval yes
    · exact h.eval no
  | sequence parts => exact h.evalSequence h.hereditary.undefined parts
  | member o name => exact h.evalMember o name
  | call callee args => exact h.evalCall callee args
  | construct callee args => exact h.evalConstruct callee args
  | function params body => exact Hands.newFunction h.hereditary _ _
  | arrow params e => exact Hands.newFunction h.hereditary _ _
  | otherLiteral | otherCall | spread | hole | otherPlace | other => exact Hands.fault _

/-! ### Statements -/

theorem execAll (body : List Stmt) :
    Hands has limit (FlowHas has) (self.execAll body) (self'.execAll body) := by
  induction body with
  | nil => exact Sustains.pure nofun
  | cons s r ih =>
    refine (h.exec s).bind fun flow hflow => ?_
    split
    · exact ih
    · exact Sustains.pure hflow

theorem execBlock (body : List Stmt) :
    Hands has limit (FlowHas has) (self.execBlock body) (self'.execBlock body) :=
  (Hands.hoist h.hereditary body).bind fun _ _ => h.execAll body

theorem holds (test : Option Expr) :
    Hands has limit (fun _ => True) (self.holds test) (self'.holds test) := by
  unfold Interp.holds
  split
  · exact (h.eval _).bind fun v _ => Sustains.pure trivial
  · exact Sustains.pure trivial

omit h in
theorem flowHas_afterRound {flow next : Flow} (hflow : FlowHas has flow)
    (hnext : Interp.afterRound flow = some next) : FlowHas has next := by
  cases flow with
  | give v =>
    cases hnext
    exact hflow
  | leave =>
    cases hnext
    exact nofun
  | normal => cases hnext
  | again => cases hnext

theorem execWhile (test : Option Expr) (body : Stmt) (update : Option Expr) :
    Hands has limit (FlowHas has) (self.execWhile test body update)
      (self'.execWhile test body update) := by
  have goOn : ∀ flow ∈ (none : Option Flow), FlowHas has flow := nofun
  refine Sustains.repeatedly (StateHas.lasts has limit) ((h.holds test).bind fun holds _ => ?_)
  split
  · exact Sustains.pure fun flow hflow => by cases hflow; exact nofun
  · refine (h.exec body).bind fun flow hflow => ?_
    split
    · rename_i next hnext
      exact Sustains.pure fun flow heq => by cases heq; exact flowHas_afterRound hflow hnext
    · split
      · exact (h.eval _).bind fun v _ => Sustains.pure goOn
      · exact Sustains.pure goOn

theorem execDoWhile (body : Stmt) (test : Expr) :
    Hands has limit (FlowHas has) (self.execDoWhile body test) (self'.execDoWhile body test) := by
  refine Sustains.repeatedly (StateHas.lasts has limit) ((h.exec body).bind fun flow hflow => ?_)
  split
  · rename_i next hnext
    exact Sustains.pure fun flow heq => by cases heq; exact flowHas_afterRound hflow hnext
  · refine (h.eval test).bind fun v _ => ?_
    split
    · exact Sustains.pure nofun
    · exact Sustains.pure fun flow hflow => by cases hflow; exact nofun

theorem execEach (declare : Bool) (target : Binding) (body : Stmt) {values : List Value}
    (hvalues : ∀ v ∈ values, has v) :
    Hands has limit (FlowHas has) (self.execEach declare target body values)
      (self'.execEach declare target body values) := by
  induction values with
  | nil => exact Sustains.pure nofun
  | cons v r ih =>
    obtain ⟨hv, hr⟩ := List.forall_mem_cons.mp hvalues
    refine Hands.tick.bind fun _ _ => (h.bind declare target hv).bind fun _ _ =>
      (h.exec body).bind fun flow hflow => ?_
    split
    · rename_i next hnext
      exact Sustains.pure (flowHas_afterRound hflow hnext)
    · exact ih hr

theorem matchingCases (v : Value) (cases : List Case) :
    Hands has limit (fun _ => True) (self.matchingCases v cases) (self'.matchingCases v cases) := by
  fun_induction self.matchingCases v cases with
  | case1 => exact Sustains.pure trivial
  | case2 test body r ih =>
    refine (h.eval test).bind fun w _ => ?_
    split
    · exact Sustains.pure trivial
    · exact ih
  | case3 body r ih => exact ih

theorem execCases (cases : List Case) :
    Hands has limit (FlowHas has) (self.execCases cases) (self'.execCases cases) := by
  induction cases with
  | nil => exact Sustains.pure nofun
  | cons first r ih =>
    obtain ⟨test, body⟩ := first
    refine (h.execBlock body).bind fun flow hflow => ?_
    split
    · exact ih
    · exact Sustains.pure nofun
    · exact Sustains.pure hflow

theorem execSwitch (value : Expr) (cases : List Case) :
    Hands has limit (FlowHas has) (self.execSwitch value cases) (self'.execSwitch value cases) :=
  (h.eval value).bind fun v _ => (h.matchingCases v cases).bind fun _ _ => h.execCases _

theorem bindMessage (param : Option Binding) (f : Cause) :
    Hands has limit (fun _ => True) (self.bindMessage param f) (self'.bindMessage param f) := by
  cases param with
  | none => exact Sustains.pure trivial
  | some target => exact h.bind _ _ (h.hereditary.string _)

theorem execLast (finalizer : Option (List Stmt)) :
    Hands has limit (fun flow? => ∀ flow ∈ flow?, FlowHas has flow) (self.execLast finalizer)
      (self'.execLast finalizer) := by
  cases finalizer with
  | none => exact Sustains.pure nofun
  | some body =>
    refine (h.execBlock body).bind fun flow hflow => ?_
    split
    · exact Sustains.pure fun flow heq => by cases heq; exact hflow
    · exact Sustains.pure nofun

theorem execAttempt (body : List Stmt) (param : Option Binding)
    (handler finalizer : Option (List Stmt)) :
    Hands has limit (FlowHas has) (self.execAttempt body param handler finalizer)
      (self'.execAttempt body param handler finalizer) := by
  cases handler with
  | none =>
    exact (h.execBlock body).attempt (fun _ => Sustains.pure trivial)
      (fun f => Sustains.throw f.val) (h.execLast finalizer)
  | some handler =>
    exact (h.execBlock body).attempt (h.bindMessage param) (fun _ => h.execBlock handler)
      (h.execLast finalizer)

/-- Machines that hand on the property in the parts of a statement do so in the statement. -/
theorem execBody (s : Stmt) :
    Hands has limit (FlowHas has) (self.execBody s) (self'.execBody s) := by
  refine Hands.tick.bind fun _ _ => ?_
  cases s with
  | expr e => exact (h.eval e).bind fun _ _ => Sustains.pure nofun
  | vars decls => exact (h.declareAll decls).bind fun _ _ => Sustains.pure nofun
  | function | empty => exact Sustains.pure nofun
  | block body => exact h.execBlock body
  | branch test yes no =>
    refine (h.eval test).bind fun v _ => ?_
    split
    · exact h.exec yes
    · split
      · exact h.exec _
      · exact Sustains.pure nofun
  | give e =>
    cases e with
    | none => exact Sustains.pure fun v hv => by cases hv; exact h.hereditary.undefined
    | some e => exact (h.eval e).bind fun v hv => Sustains.pure fun w hw => by cases hw; exact hv
  | leave | again => exact Sustains.pure nofun
  | whileDo test body => exact h.execWhile (some test) body none
  | doWhile body test => exact h.execDoWhile body test
  | count start test update body =>
    dsimp only
    split
    · exact (h.declareAll _).bind fun _ _ => h.execWhile test body update
    · exact (h.eval _).bind fun _ _ => h.execWhile test body update
    · exact h.execWhile test body update
  | eachOf declares target list body =>
    exact (h.eval list).bind fun v hv => (Hands.itemsOf h.hereditary hv).bind fun items hitems =>
      h.execEach declares target body hitems
  | eachIn declares target object body =>
    exact (h.eval object).bind fun v _ =>
      h.execEach declares target body (h.hereditary.keysOf v)
  | switch value cases => exact h.execSwitch value cases
  | throw e => exact (h.eval e).bind fun v _ => Hands.fault _
  | attempt body param handler finalizer => exact h.execAttempt body param handler finalizer
  | other => exact Hands.fault _

/-! ### Functions -/

theorem bindParams (params : List Binding) {args : List Value} (hargs : ∀ v ∈ args, has v) :
    Hands has limit (fun _ => True) (self.bindParams params args)
      (self'.bindParams params args) := by
  fun_induction self.bindParams params args with
  | case1 => exact Sustains.pure trivial
  | case2 b r args => exact h.bind _ _ (h.hereditary.array_iff.mpr hargs)
  | case3 b r args hr ih =>
    rw [Interp.bindParams]
    · have hfirst : has (args.head?.getD .undefined) :=
        h.hereditary.getD fun v hv => hargs v (List.mem_of_mem_head? hv)
      exact (h.bind _ _ hfirst).bind fun _ _ => ih fun v hv => hargs v (List.mem_of_mem_tail hv)
    · exact hr

/-- Machines that hand on the property in the parts of a function do so in its calls. -/
theorem callBody (params : List Binding) (body : Body) {args : List Value}
    (hargs : ∀ v ∈ args, has v) :
    Hands has limit has (self.callBody params body args) (self'.callBody params body args) := by
  refine Sustains.inCall (StateHas.lasts has limit) ((h.bindParams params hargs).bind fun _ _ => ?_)
  cases body with
  | expr e => exact h.eval e
  | block stmts =>
    refine (h.execBlock stmts).bind fun flow hflow => ?_
    split
    · exact Sustains.pure (hflow _ rfl)
    · exact Sustains.pure h.hereditary.undefined

/-! ### Scripts -/

theorem runStmts (body : List Stmt) :
    Hands has limit has (self.runStmts body) (self'.runStmts body) := by
  have result : Hands has limit has Interp.resultValue Interp.resultValue :=
    (Hands.lookup? "result").bind fun v? hv => Sustains.pure (h.hereditary.getD hv)
  fun_induction self.runStmts body with
  | case1 => exact result
  | case2 e assigns =>
    rw [Interp.runStmts, if_pos assigns]
    exact (h.exec _).bind fun _ _ => result
  | case3 e assigns =>
    rw [Interp.runStmts, if_neg assigns]
    exact Hands.tick.bind fun _ _ => h.eval e
  | case4 s r last ih =>
    rw [Interp.runStmts]
    · refine (h.exec s).bind fun flow hflow => ?_
      split
      · exact Sustains.pure (hflow _ rfl)
      · exact ih
    · exact last

/-- Machines that hand on the property in the parts of a script do so in the script. -/
theorem run (body : List Stmt) : Hands has limit has (self.run body) (self'.run body) :=
  (Hands.hoist h.hereditary body).bind fun _ _ => h.runStmts body

end HandsOn

/-! ### The watched machine -/

section

variable (hereditary : Hereditary has) {watch : Watch}

include hereditary

/-- Machines that give no meaning to any part hand on the property. -/
theorem handsOn_zero : HandsOn has limit (interp put 0) (interp put 0) where
  hereditary := hereditary
  eval _ := Sustains.throw _
  exec _ := Hands.tick.bind fun _ _ => Sustains.throw _
  bind _ _ _ _ := Sustains.throw _
  assign _ _ _ := Sustains.throw _
  call _ _ _ _ := Sustains.throw _
  put := Hands.put

omit hereditary in
/-- An expression whose value is let through is evaluated as without the watch. -/
theorem Hands.inspect (hwatch : ∀ e v s, has v → StateHas has limit s → watch e v s = true)
    {e : Expr} {m m' : Run Value} (h : Hands has limit has m m') :
    Hands has limit has m (do Cap.inspect watch e (← m')) := by
  intro s o t hs hrun
  obtain ⟨hsame, ht, hv⟩ := h hs hrun
  refine ⟨?_, ht, hv⟩
  cases o with
  | error f => exact run_bind_of_error hsame _
  | ok v =>
    have hinspect : (Cap.inspect watch e v).run t = (.ok v, t) := by
      change (do Run.insist (watch e v t); pure v : Run Value).run t = _
      rw [hwatch e v t (hv v rfl) ht]
      rfl
    exact (run_bind_of_ok hsame).trans hinspect

/-- **A watch that lets a hereditary property through** leaves the usual machine as it is, to any
depth. -/
theorem handsOn_watched (hwatch : ∀ e v s, has v → StateHas has limit s → watch e v s = true)
    (depth : Nat) : HandsOn has limit (interp put depth) (Cap.free.watched watch depth) := by
  have insist {v : Value} {m m' : Run Unit} (h : Hands has limit (fun _ => True) m m') :
      Hands has limit (fun _ => True) m (do Run.insist (Cap.free.within v); m') := by
    rw [Cap.within_free]
    exact h
  induction depth with
  | zero => exact handsOn_zero hereditary
  | succ depth ih =>
    exact
      { hereditary := hereditary
        eval := fun e => (ih.evalBody e).inspect hwatch
        exec := ih.execBody
        bind := fun declare b _ hv => insist (ih.bindBody declare b hv)
        assign := fun e _ hv => insist (ih.assignBody e hv)
        call := fun params body _ hargs => ih.callBody params body hargs
        put := Hands.put }

end

section

variable {result : Value}

theorem stateHas_initial (hereditary : Hereditary has) (hresult : has result)
    (baseUrl? : Option String) (session : Session) :
    StateHas has limit (State.initial result baseUrl? session limit) := by
  refine ⟨fun scope hscope f hf => ?_, rfl⟩
  obtain rfl := List.mem_singleton.mp hscope
  rcases List.mem_pair.mp hf with rfl | rfl
  · exact hresult
  · cases baseUrl? with
    | none => exact hereditary.undefined
    | some url => exact hereditary.string url

/-- **Scripts keep a hereditary property**: a script on a value that has it runs as usual under a
watch that lets the property through, which looks at every expression; all variables have it in the
end, and so has the value that the script gives. -/
theorem runWatched_eq_of_hereditary (hereditary : Hereditary has) (hresult : has result)
    {watch : Watch} (hwatch : ∀ e v s, has v → StateHas has limit s → watch e v s = true)
    (source : List Char) (baseUrl? : Option String) (session : Session) :
    Cap.free.runWatched watch source result baseUrl? session limit =
        runWith put source result baseUrl? session limit ∧
      StateHas has limit (runWith put source result baseUrl? session limit).2 ∧
      ∀ v, (runWith put source result baseUrl? session limit).1 = .ok v → has v := by
  have hstart : StateHas has limit (State.initial result baseUrl? session limit) :=
    stateHas_initial hereditary hresult baseUrl? session
  cases hparse : parse source with
  | error e =>
    rw [runWatched_of_parse_error hparse, runWith, hparse]
    exact ⟨rfl, hstart, nofun⟩
  | ok body =>
    have hwalk : HandsOn has limit (interp put (maxDepth source.length))
        (Cap.free.watched watch (maxDepth source.length)) :=
      handsOn_watched hereditary hwatch _
    cases hrun : ((interp put (maxDepth source.length)).run body).run
        (State.initial result baseUrl? session limit) with
    | mk o t =>
      obtain ⟨hsame, ht, hv⟩ := hwalk.run body hstart hrun
      have heq : runWith put source result baseUrl? session limit = (o.mapError .run, t) := by
        rw [runWith, hparse]
        dsimp only
        rw [hrun]
      rw [runWatched_of_parse hparse hsame, heq]
      refine ⟨rfl, ht, fun v hok => hv v ?_⟩
      cases o with
      | error f => cases hok
      | ok w => exact congrArg _ (Except.ok.inj hok)

end

end Scrape.Script
