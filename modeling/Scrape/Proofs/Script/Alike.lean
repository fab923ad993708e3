import Scrape.Proofs.Script.Congruence
import Scrape.Script.Evaluate

/-!
# Script — Alike

Scripts are run by a machine that is given the meaning of the parts of a script.  Two machines are
alike, for a relation that every way of putting runs together keeps, if it holds between what they
do on each part, and if the values they give there are within the cap of the relation; they are then
alike on all that is made of the parts, and give there a value within the cap, but where the cap
says that a script can come to one that is not.

Main statement (`Congruence.Plain.alike_interp`): two machines that differ in the effect of putting
into the session are alike, to any depth, if the two effects are, for a relation without a cap.
-/

namespace Scrape.Script

open Run

/-- The value that a statement ends with, if any, is within the cap. -/
def Cap.FlowWithin (cap : Cap) (flow : Flow) : Prop := ∀ v, flow = .give v → cap.within v = true

namespace Congruence

variable (c : Congruence)

/-- Two machines are alike on each part of a script, whatever values are bound, assigned or put, and
neither of them does anything in a statement before it takes a step. -/
structure Alike (i i' : Interp) : Prop where
  eval (e : Expr) : c.gives (i.eval e) (i'.eval e)
  exec (s : Stmt) : c.rel c.cap.FlowWithin (i.exec s) (i'.exec s)
  bind (declare : Bool) (b : Binding) (v : Value) :
    c.does (i.bind declare b v) (i'.bind declare b v)
  assign (e : Expr) (v : Value) : c.does (i.assign e v) (i'.assign e v)
  call (params : List Binding) (body : Body) (args : List Value) :
    c.gives (i.call params body args) (i'.call params body args)
  put (key : String) (v : Value) : c.does (i.put key v) (i'.put key v)
  ticks (s : Stmt) : ∃ rest rest', (i.exec s = do Run.tick; rest) ∧
    i'.exec s = do Run.tick; rest'

end Congruence

namespace Congruence.Alike

variable {c : Congruence} {self self' : Interp} (h : c.Alike self self')

include h

/-! ### Lists and names -/

theorem callValue (f : Value) (args : List Value) :
    c.gives (self.callValue f args) (self'.callValue f args) := by
  unfold Interp.callValue
  split
  · exact h.call _ _ _
  · exact c.fault _

theorem evalItems {acc : List Value} (hacc : c.cap.Within acc) (items : List Expr) :
    c.givesAll (self.evalItems acc items) (self'.evalItems acc items) := by
  have more {v : Value} {acc : List Value} (hv : c.cap.within v = true) (hacc : c.cap.Within acc) :
      c.cap.Within (v :: acc) :=
    List.forall_mem_cons.mpr ⟨hv, hacc⟩
  fun_induction self.evalItems acc items with
  | case1 acc => exact c.pure fun v hv => hacc v (List.mem_reverse.mp hv)
  | case2 acc e r ih =>
    refine c.bind (h.eval e) fun v hv => c.bind (c.itemsOf hv) fun items hitems => ih items ?_
    refine List.forall_mem_append.mpr ⟨fun v hv => ?_, hacc⟩
    exact hitems v (List.mem_reverse.mp hv)
  | case3 acc r ih => exact ih (more c.sound.undefined hacc)
  | case4 acc e r hs hh ih =>
    rw [Interp.evalItems]
    · exact c.bind (h.eval e) fun v hv => ih v (more hv hacc)
    · exact hs
    · exact hh

theorem args (items : List Expr) :
    c.givesAll (self.evalItems [] items) (self'.evalItems [] items) :=
  h.evalItems (List.forall_mem_nil _) items

theorem keyOf (otherwise : Form) (name : Name) :
    c.rel (fun key => ∀ s, name = .text s → key = s) (self.keyOf otherwise name)
      (self'.keyOf otherwise name) := by
  cases name with
  | text s     => exact c.pure fun t ht => (Name.text.inj ht)
  | number x   => exact c.pure fun _ ht => nomatch ht
  | computed e => exact c.bind (h.eval e) fun v _ => c.pure fun _ ht => nomatch ht
  | other      => exact c.fault _

theorem memberKey (name : Name) :
    c.rel (fun key => ∀ s, name = .text s → key = s) (self.memberKey name)
      (self'.memberKey name) :=
  h.keyOf .memberAccess name

theorem propertyKey (name : Name) : c.does (self.propertyKey name) (self'.propertyKey name) :=
  c.weaken (h.keyOf .propertyName name) fun _ _ => trivial

theorem evalTemplate (acc : String) (texts : List String) (parts : List Expr) :
    c.does (self.evalTemplate acc texts parts) (self'.evalTemplate acc texts parts) := by
  fun_induction self.evalTemplate acc texts parts with
  | case1 acc => exact c.pure trivial
  | case2 acc t ts => exact c.pure trivial
  | case3 acc t ts e r acc' ih =>
    exact c.bind (h.eval e) fun v _ =>
      c.bind (c.ofOutcome (P := fun _ => True) fun _ _ => trivial) fun s _ => ih s

theorem evalFields {acc : List (String × Value)} (hacc : c.cap.within (.object acc) = true)
    (fields : List Field) :
    c.rel (fun fs => c.cap.within (.object fs) = true) (self.evalFields acc fields)
      (self'.evalFields acc fields) := by
  have put {acc : List (String × Value)} (hacc : c.cap.within (.object acc) = true) (key : String)
      {v : Value} (hv : c.cap.within v = true) :
      c.cap.within (.object (Keyed.put key v acc)) = true :=
    Cap.within_object_iff.mpr fun f hf => (Keyed.mem_put hf).elim (fun heq => heq ▸ hv)
      (Cap.within_object_iff.mp hacc f)
  have putAll {acc more : List (String × Value)} (hacc : c.cap.within (.object acc) = true)
      (hmore : ∀ f ∈ more, c.cap.within f.2 = true) :
      c.cap.within (.object (Keyed.putAll acc more)) = true :=
    Cap.within_object_iff.mpr fun f hf => (Keyed.mem_putAll hf).elim
      (Cap.within_object_iff.mp hacc f) (hmore f)
  induction fields generalizing acc with
  | nil => exact c.pure hacc
  | cons f r ih =>
    cases f with
    | value name e =>
      exact c.bind (h.propertyKey name) fun key _ => c.bind (h.eval e) fun v hv =>
        ih (put hacc key hv)
    | shorthand n => exact c.bind (c.valueOf n) fun v hv => ih (put hacc n hv)
    | method name params body =>
      exact c.bind (h.propertyKey name) fun key _ => c.bind (c.newFunction _ _) fun f hf =>
        ih (put hacc key hf)
    | spread e =>
      refine c.bind (h.eval e) fun v hv => ?_
      split
      · exact ih (putAll hacc (Cap.within_object_iff.mp hv))
      · refine ih (putAll hacc fun f hf => ?_)
        obtain ⟨i, hi, rfl⟩ := List.mem_mapIdx.mp hf
        exact (Cap.within_array_iff.mp hv).2 _ (List.getElem_mem hi)
      · exact ih hacc
    | shorthandDefault => exact c.fault _
    | other => exact c.fault _

/-! ### Members and assignment -/

theorem putBack (place : Expr) (v : Value) :
    c.does (self.putBack place v) (self'.putBack place v) := by
  unfold Interp.putBack
  split
  · exact h.assign place v
  · exact c.pure trivial

theorem assignMember (object : Expr) (name : Name) (v : Value) :
    c.does (self.assignMember object name v) (self'.assignMember object name v) := by
  refine c.bind (h.memberKey name) fun key _ => c.bind (h.eval object) fun container _ => ?_
  split
  · exact h.putBack _ _
  · exact c.fault _

theorem assignBody (target : Expr) {v : Value} (hv : c.cap.within v = true) :
    c.does (self.assignBody target v) (self'.assignBody target v) := by
  unfold Interp.assignBody
  split
  · exact c.setVar _ _ hv
  · exact h.assignMember _ _ _
  · exact h.assign _ _
  · exact c.fault _

theorem evalMember (object : Expr) (name : Name) :
    c.gives (self.evalMember object name) (self'.evalMember object name) := by
  refine c.bind (c.isMath object) fun math _ => ?_
  split
  · exact c.bind (h.memberKey name) fun key _ => c.pure (c.sound.within_mathConstant key)
  · refine c.bind (h.eval object) fun target htarget => c.bind (h.memberKey name) fun key _ => ?_
    split
    · exact c.bind (P := fun _ => True) (c.fault _) fun _ _ =>
        c.pure (c.sound.within_get htarget key)
    · exact c.pure (c.sound.within_get htarget key)

theorem deleteMember (object : Expr) (name : Name) :
    c.does (self.deleteMember object name) (self'.deleteMember object name) := by
  refine c.bind (h.memberKey name) fun key _ => c.bind (h.eval object) fun v _ => ?_
  split
  · exact h.putBack _ _
  · exact c.pure trivial

theorem readTarget (target : Binding) :
    c.gives (self.readTarget target) (self'.readTarget target) := by
  unfold Interp.readTarget
  split
  · exact c.valueOf _
  · exact h.evalMember _ _
  · exact h.eval _
  · exact c.fault _

theorem writeTarget (target : Binding) {v : Value} (hv : c.cap.within v = true) :
    c.does (self.writeTarget target v) (self'.writeTarget target v) := by
  unfold Interp.writeTarget
  split
  · exact c.setVar _ _ hv
  · exact h.assignMember _ _ _
  · exact h.assign _ _
  · exact h.bind _ _ _
  · exact h.bind _ _ _
  · exact c.fault _

theorem assignedValue (op : AssignOp) (target : Binding) (e : Expr) :
    c.rel (fun r => c.cap.within (r.elim id id) = true) (self.assignedValue op target e)
      (self'.assignedValue op target e) := by
  have assignedIf (p : Value → Bool) :
      c.rel (α := Value ⊕ Value) (fun r => c.cap.within (r.elim id id) = true)
        (do let old ← self.readTarget target
            if p old then return .inl (← self.eval e) else return .inr old)
        (do let old ← self'.readTarget target
            if p old then return .inl (← self'.eval e) else return .inr old) := by
    refine c.bind (h.readTarget target) fun old hold => ?_
    split
    · exact c.bind (h.eval e) fun v hv => c.pure hv
    · exact c.pure hold
  cases op with
  | plain => exact c.bind (h.eval e) fun v hv => c.pure hv
  | and => exact assignedIf _
  | or => exact assignedIf _
  | nullish => exact assignedIf _
  | compound op =>
    exact c.bind (h.readTarget target) fun old _ => c.bind (h.eval e) fun v _ =>
      c.bind (c.ofOutcome fun _ hw => c.sound.within_apply hw) fun w hw => c.pure hw

theorem evalAssign (op : AssignOp) (target : Binding) (e : Expr) :
    c.gives (self.evalAssign op target e) (self'.evalAssign op target e) := by
  refine c.bind (h.assignedValue op target e) fun r hr => ?_
  cases r with
  | inr v => exact c.pure hr
  | inl v => exact c.bind (h.writeTarget target hr) fun _ _ => c.pure hr

theorem evalUpdate (before up : Bool) (operand : Expr) :
    c.gives (self.evalUpdate before up operand) (self'.evalUpdate before up operand) :=
  c.bind (h.eval operand) fun _ _ => c.bind (h.assign operand _) fun _ _ =>
    c.pure (c.sound.number _)

/-! ### Patterns -/

theorem bindItems (declare : Bool) (v : Value) (i : Nat) (items : List Binding) :
    c.does (self.bindItems declare v i items) (self'.bindItems declare v i items) := by
  fun_induction self.bindItems declare v i items with
  | case1 => exact c.pure trivial
  | case2 i r ih => exact ih
  | case3 i b r tail => exact h.bind _ _ _
  | case4 i b r hh hr ih =>
    rw [Interp.bindItems]
    · exact c.bind (h.bind _ _ _) fun _ _ => ih
    · exact hh
    · exact hr

theorem bindFields (declare : Bool) {v : Value} (hv : c.cap.within v = true)
    (fields : List FieldBinding) :
    c.does (self.bindFields declare v fields) (self'.bindFields declare v fields) := by
  induction fields with
  | nil => exact c.pure trivial
  | cons f r ih =>
    cases f with
    | shorthand n default? =>
      unfold Interp.bindFields
      dsimp only
      split
      · exact c.bind (h.eval _) fun w hw => c.bind (c.setVar _ _ hw) fun _ _ => ih
      · exact c.bind (c.pure (c.sound.within_get hv n)) fun w hw =>
          c.bind (c.setVar _ _ hw) fun _ _ => ih
    | named name b =>
      exact c.bind (h.propertyKey name) fun key _ => c.bind (h.bind _ _ _) fun _ _ => ih
    | rest b => exact c.bind (P := fun _ => True) (c.fault _) fun _ _ => ih

theorem bindBody (declare : Bool) (target : Binding) {v : Value} (hv : c.cap.within v = true) :
    c.does (self.bindBody declare target v) (self'.bindBody declare target v) := by
  cases target with
  | name n => exact c.setVar _ _ hv
  | array items => exact h.bindItems _ _ _ _
  | object fields => exact h.bindFields _ hv _
  | withDefault b e =>
    unfold Interp.bindBody
    dsimp only
    split
    · exact c.bind (h.eval e) fun w _ => h.bind _ _ w
    · exact c.bind (P := fun w => c.cap.within w = true) (c.pure hv) fun w _ => h.bind _ _ w
  | place e =>
    unfold Interp.bindBody
    dsimp only
    split
    · exact c.fault _
    · exact h.assign _ _
  | hole => exact c.fault _
  | rest b => exact c.fault _
  | other => exact c.fault _

theorem declareAll (decls : List Declarator) :
    c.does (self.declareAll decls) (self'.declareAll decls) := by
  induction decls with
  | nil => exact c.pure trivial
  | cons d r ih =>
    obtain ⟨target, init⟩ := d
    cases init with
    | none =>
      exact c.bind (P := fun _ => True) (c.pure trivial) fun v _ =>
        c.bind (h.bind _ _ v) fun _ _ => ih
    | some e => exact c.bind (h.eval e) fun v _ => c.bind (h.bind _ _ v) fun _ _ => ih

/-! ### Methods that call functions -/

/-- What a method keeps of the items that it has called a function for is no longer than they
are. -/
theorem callEach (name : String) (f : Value) {whole : List Value}
    (hwhole : c.cap.within (.array whole) = true) {acc : List Value} (hacc : c.cap.Within acc)
    (i : Nat) {items : List Value} (hitems : c.cap.Within items)
    (hlength : acc.length + items.length ≤ whole.length) :
    c.gives (self.callEach name f whole acc i items) (self'.callEach name f whole acc i items) := by
  induction items generalizing acc i with
  | nil =>
    have hkept : c.cap.within (.array acc.reverse) = true :=
      c.sound.within_shorter hwhole (by simpa using hlength) fun v hv =>
        hacc v (List.mem_reverse.mp hv)
    refine c.pure ?_
    unfold Interp.afterAll
    split
    · exact hkept
    · exact hkept
    · exact c.sound.number _
    · exact c.sound.bool _
    · exact c.sound.bool _
    · exact c.sound.undefined
  | cons item r ih =>
    obtain ⟨hitem, hr⟩ := List.forall_mem_cons.mp hitems
    rw [List.length_cons] at hlength
    have keep {v : Value} (hv : c.cap.within v = true) : c.cap.Within (v :: acc) :=
      List.forall_mem_cons.mpr ⟨hv, hacc⟩
    refine c.bind (h.callValue f _) fun out hout => ?_
    have hstep : (Interp.afterCall name i item out acc).elim (fun v => c.cap.within v = true)
        fun kept => c.cap.Within kept ∧ kept.length ≤ acc.length + 1 := by
      unfold Interp.afterCall
      split
      · exact ⟨keep hout, Nat.le_refl _⟩
      · split
        · exact ⟨keep hitem, Nat.le_refl _⟩
        · exact ⟨hacc, Nat.le_succ _⟩
      · split
        · exact hitem
        · exact ⟨hacc, Nat.le_succ _⟩
      · split
        · exact c.sound.number _
        · exact ⟨hacc, Nat.le_succ _⟩
      · split
        · exact c.sound.bool _
        · exact ⟨hacc, Nat.le_succ _⟩
      · split
        · exact ⟨hacc, Nat.le_succ _⟩
        · exact c.sound.bool _
      · exact ⟨hacc, Nat.le_succ _⟩
    split
    · rename_i v hv
      rw [hv] at hstep
      exact c.pure hstep
    · rename_i kept hkept
      rw [hkept] at hstep
      exact ih hstep.1 _ hr (by have := hstep.2; omega)

theorem fold (f : Value) {acc : Value} (hacc : c.cap.within acc = true) (i : Nat)
    (items : List Value) : c.gives (self.fold f acc i items) (self'.fold f acc i items) := by
  induction items generalizing acc i with
  | nil => exact c.pure hacc
  | cons item r ih => exact c.bind (h.callValue f _) fun v hv => ih hv _

theorem reduce (f : Value) {items args : List Value} (hitems : c.cap.Within items)
    (hargs : c.cap.Within args) :
    c.gives (self.reduce f items args) (self'.reduce f items args) := by
  unfold Interp.reduce
  split
  · rename_i init items hinit
    exact h.fold _ (hargs _ (List.mem_of_getElem? hinit)) _ _
  · exact h.fold _ (hitems _ List.mem_cons_self) _ _
  · exact c.fault _

theorem comesAfter (comparator? : Option Value) (a b : Value) :
    c.does (self.comesAfter comparator? a b) (self'.comesAfter comparator? a b) := by
  unfold Interp.comesAfter
  split
  · exact c.bind (h.call _ _ _) fun v _ => c.pure trivial
  · exact c.bind c.tick fun _ _ => c.pure trivial

theorem insertSorted (comparator? : Option Value) (item : Value) (passed sorted : List Value) :
    c.rel (fun l => l.Perm (item :: (passed ++ sorted)))
      (self.insertSorted comparator? item passed sorted)
      (self'.insertSorted comparator? item passed sorted) := by
  induction sorted generalizing passed with
  | nil =>
    refine c.pure ?_
    rw [List.append_nil]
    exact (List.perm_append_singleton _ _).trans (passed.reverse_perm.cons _)
  | cons last r ih =>
    refine c.bind (h.comesAfter comparator? last item) fun after _ => ?_
    split
    · refine c.weaken (ih (last :: passed)) fun l hl => hl.trans (.cons _ ?_)
      exact List.perm_middle.symm
    · refine c.pure (List.perm_middle.trans (.cons _ ?_))
      exact passed.reverse_perm.append_right _

theorem sortInto (comparator? : Option Value) (sorted items : List Value) :
    c.rel (fun l => l.Perm (sorted ++ items)) (self.sortInto comparator? sorted items)
      (self'.sortInto comparator? sorted items) := by
  induction items generalizing sorted with
  | nil =>
    refine c.pure ?_
    rw [List.append_nil]
    exact sorted.reverse_perm
  | cons item r ih =>
    refine c.bind (h.insertSorted comparator? item [] sorted) fun l hl => ?_
    refine c.weaken (ih l) fun l' hl' => hl'.trans ((hl.append_right r).trans ?_)
    exact List.perm_middle.symm

theorem sort (comparator? : Option Value) (items : List Value) :
    c.rel (fun l => l.Perm items) (self.sort comparator? items) (self'.sort comparator? items) :=
  h.sortInto comparator? [] items

theorem arrayMethod {items : List Value} (hitems : c.cap.within (.array items) = true)
    (name : String) {args : List Value} (hargs : c.cap.Within args) :
    c.rel (fun reply => name ∉ c.cap.methods → c.cap.within reply.value = true)
      (self.arrayMethod items name args) (self'.arrayMethod items name args) := by
  have heach := (Cap.within_array_iff.mp hitems).2
  unfold Interp.arrayMethod
  split
  · refine c.bind (h.sort _ items) fun sorted hsorted => c.pure fun _ => ?_
    exact c.sound.within_shorter hitems (Nat.le_of_eq hsorted.length_eq) fun v hv =>
      heach v (hsorted.mem_iff.mp hv)
  · split
    · exact c.bind (c.callback args) fun f _ => c.bind (h.reduce f heach hargs) fun v hv =>
        c.pure fun _ => hv
    · split
      · refine c.bind (c.callback args) fun f _ => ?_
        exact c.bind (h.callEach name f hitems (List.forall_mem_nil _) 0 heach (by simp))
          fun v hv => c.pure fun _ => hv
      · split
        · rename_i outcome houtcome
          exact c.ofOutcome fun reply hreply hname =>
            c.sound.listMethod _ _ _ _ hname hitems hargs (hreply ▸ houtcome)
        · exact c.fault _

theorem replacement (f : Value) (s : String) (m : Pattern.Match) :
    c.does (self.replacement f s m) (self'.replacement f s m) :=
  c.bind (h.callValue f _) fun _ _ => c.pure trivial

theorem replacements (f : Value) (s : String) (acc : List (Pattern.Match × List Char))
    (found : List Pattern.Match) :
    c.does (self.replacements f s acc found) (self'.replacements f s acc found) := by
  induction found generalizing acc with
  | nil => exact c.pure trivial
  | cons m ms ih => exact c.bind (h.replacement f s m) fun text _ => ih _

theorem replaceByCalls (s : String) (all : Bool) (f : Value) (args : List Value) :
    c.rel (fun v => ∃ s, v = .string s) (self.replaceByCalls s all f args)
      (self'.replaceByCalls s all f args) :=
  c.bind (c.ofOutcome (P := fun _ => True) fun _ _ => trivial) fun _ _ =>
    c.bind (h.replacements f s [] _) fun _ _ => c.pure ⟨_, rfl⟩

theorem stringMethod {s : String} (hs : c.cap.fits (.string s) = true) (name : String)
    {args : List Value} (hargs : c.cap.Within args) :
    c.rel (fun v => name ∉ c.cap.methods → c.cap.within v = true)
      (self.stringMethod s name args) (self'.stringMethod s name args) := by
  unfold Interp.stringMethod
  split
  · refine c.weaken (h.replaceByCalls _ _ _ _) fun v ⟨t, ht⟩ hname => ?_
    exact ht ▸ c.sound.replaced _ (.inl rfl) hname t
  · refine c.weaken (h.replaceByCalls _ _ _ _) fun v ⟨t, ht⟩ hname => ?_
    exact ht ▸ c.sound.replaced _ (.inr rfl) hname t
  · exact c.ofOutcome fun v hv hname => c.sound.textMethod _ _ _ _ hname hs hargs hv

theorem objectMethod (fields : List (String × Value)) (name : String) (args : List Value) :
    c.gives (self.objectMethod fields name args) (self'.objectMethod fields name args) := by
  unfold Interp.objectMethod
  split
  · exact h.call _ _ _
  · split
    · exact c.pure (c.sound.bool _)
    · exact c.pure (c.sound.word "[object Object]" (by decide))
    · exact c.fault _

theorem callMethod {target : Value} (htarget : c.cap.within target = true) (name : String)
    {args : List Value} (hargs : c.cap.Within args) :
    c.rel (fun reply => name ∉ c.cap.methods → c.cap.within reply.value = true)
      (self.callMethod target name args) (self'.callMethod target name args) := by
  have other (v : Value) (hv : v.text.utf8ByteSize ≤ 64) :
      c.rel (fun reply => name ∉ c.cap.methods → c.cap.within reply.value = true)
      (if (name = "toString" && !v.isNullish) = true then return Reply.plain (.string v.text)
        else Run.fault (.uncallable name v.text))
      (if (name = "toString" && !v.isNullish) = true then return Reply.plain (.string v.text)
        else Run.fault (.uncallable name v.text)) := by
    split
    · exact c.pure fun _ => c.sound.word _ hv
    · exact c.fault _
  cases target with
  | string s => exact c.map (h.stringMethod htarget name hargs) fun v hv => hv
  | array items => exact h.arrayMethod htarget name hargs
  | regex source flags =>
    exact c.map (c.ofOutcome fun v hv hname => c.sound.regexMethod _ _ _ _ _ hname hargs hv)
      fun v hv => hv
  | number x =>
    exact c.map (c.ofOutcome fun v hv hname => c.sound.numberMethod _ _ _ _ hname hv) fun v hv => hv
  | object fields => exact c.map (h.objectMethod fields name args) fun v hv _ => hv
  | function id params body =>
    unfold Interp.callMethod
    dsimp only
    split
    · exact c.bind (h.call _ _ _) fun v hv => c.pure fun _ => hv
    · exact other _ (by simp only [Value.text]; decide)
  | undefined => exact other _ (by decide)
  | null => exact other _ (by decide)
  | bool b => exact other _ (by cases b <;> decide)

theorem callNamespace (space name : String) {args : List Value} (hargs : c.cap.Within args) :
    c.rel (fun v => name ∉ c.cap.methods → c.cap.within v = true)
      (self.callNamespace space name args) (self'.callNamespace space name args) := by
  unfold Interp.callNamespace
  split
  · rename_i hget
    obtain rfl : name = "get" := by simpa using (Bool.and_eq_true_iff.mp hget).2
    exact c.bind (c.sessionValue _) fun s _ => c.pure fun hname => c.sound.sessionGet hname s
  · split
    · exact c.bind (h.put _ _) fun _ _ => c.pure fun _ => c.sound.within_argument hargs 1
    · split
      · exact c.pure fun _ => c.sound.undefined
      · exact c.ofOutcome fun v hv hname => c.sound.namespaceFunction _ _ _ _ hname hargs hv

/-! ### Calls -/

theorem evalMethodCall (object : Expr) (member : Name) (args : List Expr) :
    c.rel (fun v => c.cap.loose (.call (.member object member) args) = false →
      c.cap.within v = true)
      (self.evalMethodCall object member args) (self'.evalMethodCall object member args) := by
  refine c.bind (h.memberKey member) fun name hname => ?_
  have named (hloose : c.cap.loose (.call (.member object member) args) = false) :
      name ∉ c.cap.methods := by
    cases member with
    | text s =>
      rw [hname s rfl]
      simpa [Cap.loose] using hloose
    | number | computed | other => simp [Cap.loose] at hloose
  refine c.bind (c.namespaceOf? object) fun space? _ => ?_
  split
  · exact c.bind (h.args args) fun vs hvs =>
      c.weaken (h.callNamespace _ name hvs) fun v hv hloose => hv (named hloose)
  · refine c.bind (h.eval object) fun target htarget => c.bind (h.args args) fun vs hvs =>
      c.bind (h.callMethod htarget name hvs) fun reply hreply => ?_
    split
    · exact c.bind (h.putBack _ _) fun _ _ => c.pure fun hloose => hreply (named hloose)
    · exact c.pure fun hloose => hreply (named hloose)

theorem evalCall (callee : Expr) (args : List Expr) :
    c.rel (fun v => c.cap.loose (.call callee args) = false → c.cap.within v = true)
      (self.evalCall callee args) (self'.evalCall callee args) := by
  have evaluated : c.gives
      (do let f ← self.eval callee; self.callValue f (← self.evalItems [] args))
      (do let f ← self'.eval callee; self'.callValue f (← self'.evalItems [] args)) :=
    c.bind (h.eval callee) fun f _ => c.bind (h.args args) fun vs _ => h.callValue f vs
  unfold Interp.evalCall
  split
  · exact h.evalMethodCall _ _ _
  · refine c.bind (c.lookup? _) fun v? _ => ?_
    split
    · refine c.bind (h.args args) fun vs hvs => c.ofOutcome fun v hv hloose => ?_
      exact c.sound.globalFunction _ _ _ (by simpa [Cap.loose] using hloose) hvs hv
    · exact c.weaken evaluated fun v hv _ => hv
  · exact c.weaken evaluated fun v hv _ => hv

theorem evalConstruct (callee : Expr) (args : List Expr) :
    c.rel (fun v => c.cap.loose (.construct callee args) = false → c.cap.within v = true)
      (self.evalConstruct callee args) (self'.evalConstruct callee args) := by
  refine c.bind (h.args args) fun vs hvs => ?_
  split
  · refine c.ofOutcome fun v hv hloose => ?_
    exact c.sound.globalFunction _ _ _ (by simpa [Cap.loose] using hloose) hvs hv
  · exact c.fault _

/-! ### Expressions -/

theorem evalUnary (op : UnaryOp) (operand : Expr) :
    c.gives (self.evalUnary op operand) (self'.evalUnary op operand) := by
  unfold Interp.evalUnary
  split
  · refine c.bind (c.lookup? _) fun v? _ => ?_
    split
    · exact c.pure (c.sound.within_kindOfName _)
    · exact c.bind (c.valueOf _) fun v _ => c.pure (c.sound.within_kind v)
  · exact c.bind (h.deleteMember _ _) fun _ _ => c.pure (c.sound.bool _)
  · exact c.pure (c.sound.bool _)
  · exact c.bind (h.eval _) fun v _ => c.pure (c.sound.within_unary _ v)

theorem evalBinary (op : BinaryOp) (left right : Expr) :
    c.gives (self.evalBinary op left right) (self'.evalBinary op left right) := by
  refine c.bind (h.eval left) fun v hv => ?_
  split
  · split
    · exact h.eval right
    · exact c.pure hv
  · split
    · exact c.pure hv
    · exact h.eval right
  · split
    · exact h.eval right
    · exact c.pure hv
  · exact c.bind (h.eval right) fun w _ => c.ofOutcome fun _ hr => c.sound.within_apply hr

theorem evalSequence {last : Value} (hlast : c.cap.within last = true) (parts : List Expr) :
    c.gives (self.evalSequence last parts) (self'.evalSequence last parts) := by
  induction parts generalizing last with
  | nil => exact c.pure hlast
  | cons e r ih => exact c.bind (h.eval e) fun v hv => ih hv

/-- Machines that are alike on the parts of an expression are alike on the expression, and its
value is within the cap if it is not loose. -/
theorem evalBody (e : Expr) :
    c.rel (fun v => c.cap.loose e = false → c.cap.within v = true) (self.evalBody e)
      (self'.evalBody e) := by
  have kept {e : Expr} {m m' : Run Value} (hm : c.gives m m') :
      c.rel (fun v => c.cap.loose e = false → c.cap.within v = true) m m' :=
    c.weaken hm fun v hv _ => hv
  cases e with
  | number x => exact c.pure fun _ => c.sound.number x
  | string s => exact c.pure (c.sound.stringForm s)
  | bool b => exact c.pure fun _ => c.sound.bool b
  | null => exact c.pure fun _ => c.sound.null
  | regex source flags => exact c.pure (c.sound.regexForm source flags)
  | name n => exact kept (c.valueOf n)
  | paren e => exact kept (h.eval e)
  | template texts parts =>
    exact c.bind (h.evalTemplate "" texts parts) fun s _ => c.pure fun hloose =>
      c.sound.templateForm _ _ hloose s
  | array items =>
    exact c.bind (h.args items) fun vs hvs => c.pure fun hloose =>
      Cap.within_array_iff.mpr ⟨c.sound.arrayForm _ hloose vs, hvs⟩
  | object fields =>
    exact kept (c.bind (h.evalFields (List.forall_mem_nil _ |> Cap.within_object_iff.mpr) fields)
      fun fs hfs => c.pure hfs)
  | unary op e => exact kept (h.evalUnary op e)
  | update before up e => exact kept (h.evalUpdate before up e)
  | binary op a b => exact kept (h.evalBinary op a b)
  | assign op target e => exact kept (h.evalAssign op target e)
  | conditional test yes no =>
    refine kept (c.bind (h.eval test) fun v _ => ?_)
    split
    · exact h.eval yes
    · exact h.eval no
  | sequence parts => exact kept (h.evalSequence c.sound.within_undefined parts)
  | member o name => exact kept (h.evalMember o name)
  | call callee args => exact h.evalCall callee args
  | construct callee args => exact h.evalConstruct callee args
  | function params body => exact kept (c.newFunction _ _)
  | arrow params e => exact kept (c.newFunction _ _)
  | otherLiteral | otherCall | spread | hole | otherPlace | other => exact c.fault _

/-! ### Statements -/

theorem execAll (body : List Stmt) :
    c.rel c.cap.FlowWithin (self.execAll body) (self'.execAll body) := by
  induction body with
  | nil => exact c.pure nofun
  | cons s r ih =>
    refine c.bind (h.exec s) fun flow hflow => ?_
    split
    · exact ih
    · exact c.pure hflow

theorem execBlock (body : List Stmt) :
    c.rel c.cap.FlowWithin (self.execBlock body) (self'.execBlock body) :=
  c.bind (c.hoist body) fun _ _ => h.execAll body

theorem holds (test : Option Expr) : c.does (self.holds test) (self'.holds test) := by
  unfold Interp.holds
  split
  · exact c.bind (h.eval _) fun v _ => c.pure trivial
  · exact c.pure trivial

omit h in
theorem within_afterRound {flow next : Flow} (hflow : c.cap.FlowWithin flow)
    (hnext : Interp.afterRound flow = some next) : c.cap.FlowWithin next := by
  cases flow with
  | give v =>
    cases hnext
    exact hflow
  | leave =>
    cases hnext
    exact nofun
  | normal => cases hnext
  | again => cases hnext

theorem execWhile (test : Option Expr) (body : Stmt) (update : Option Expr) :
    c.rel c.cap.FlowWithin (self.execWhile test body update)
      (self'.execWhile test body update) := by
  have goOn : ∀ flow ∈ (none : Option Flow), c.cap.FlowWithin flow := nofun
  refine c.repeatedly (c.bind (h.holds test) fun holds _ => ?_)
  split
  · exact c.pure fun flow hflow => by cases hflow; exact nofun
  · refine c.bind (h.exec body) fun flow hflow => ?_
    split
    · rename_i next hnext
      exact c.pure fun flow heq => by cases heq; exact within_afterRound hflow hnext
    · split
      · exact c.bind (h.eval _) fun v _ => c.pure goOn
      · exact c.pure goOn

theorem execDoWhile (body : Stmt) (test : Expr) :
    c.rel c.cap.FlowWithin (self.execDoWhile body test) (self'.execDoWhile body test) := by
  refine c.repeatedly (c.bind (h.exec body) fun flow hflow => ?_)
  split
  · rename_i next hnext
    exact c.pure fun flow heq => by cases heq; exact within_afterRound hflow hnext
  · refine c.bind (h.eval test) fun v _ => ?_
    split
    · exact c.pure nofun
    · exact c.pure fun flow hflow => by cases hflow; exact nofun

theorem execEach (declare : Bool) (target : Binding) (body : Stmt) (values : List Value) :
    c.rel c.cap.FlowWithin (self.execEach declare target body values)
      (self'.execEach declare target body values) := by
  induction values with
  | nil => exact c.pure nofun
  | cons v r ih =>
    refine c.bind c.tick fun _ _ => c.bind (h.bind declare target v) fun _ _ =>
      c.bind (h.exec body) fun flow hflow => ?_
    split
    · rename_i next hnext
      exact c.pure (within_afterRound hflow hnext)
    · exact ih

theorem matchingCases (v : Value) (cases : List Case) :
    c.does (self.matchingCases v cases) (self'.matchingCases v cases) := by
  fun_induction self.matchingCases v cases with
  | case1 => exact c.pure trivial
  | case2 test body r ih =>
    refine c.bind (h.eval test) fun w _ => ?_
    split
    · exact c.pure trivial
    · exact ih
  | case3 body r ih => exact ih

theorem execCases (cases : List Case) :
    c.rel c.cap.FlowWithin (self.execCases cases) (self'.execCases cases) := by
  induction cases with
  | nil => exact c.pure nofun
  | cons first r ih =>
    obtain ⟨test, body⟩ := first
    refine c.bind (h.execBlock body) fun flow hflow => ?_
    split
    · exact ih
    · exact c.pure nofun
    · exact c.pure hflow

theorem execSwitch (value : Expr) (cases : List Case) :
    c.rel c.cap.FlowWithin (self.execSwitch value cases) (self'.execSwitch value cases) :=
  c.bind (h.eval value) fun v _ => c.bind (h.matchingCases v cases) fun _ _ => h.execCases _

theorem bindMessage (param : Option Binding) (f : Cause) :
    c.does (self.bindMessage param f) (self'.bindMessage param f) := by
  cases param with
  | none => exact c.pure trivial
  | some target => exact h.bind _ _ _

theorem execLast (finalizer : Option (List Stmt)) :
    c.rel (fun flow? => ∀ flow ∈ flow?, c.cap.FlowWithin flow) (self.execLast finalizer)
      (self'.execLast finalizer) := by
  cases finalizer with
  | none => exact c.pure nofun
  | some body =>
    refine c.bind (h.execBlock body) fun flow hflow => ?_
    split
    · exact c.pure fun flow heq => by cases heq; exact hflow
    · exact c.pure nofun

/-- What is done in any case begins with a step, if it does anything but declare functions. -/
theorem idle_execLast (finalizer : Option (List Stmt)) :
    Idle (self.execLast finalizer) (self'.execLast finalizer) := by
  intro s hs
  rcases finalizer with - | (- | ⟨first, r⟩)
  · exact ⟨.ok none, s, rfl, rfl, .inl rfl, Nat.le_refl _, rfl⟩
  · exact ⟨.ok none, s, rfl, rfl, .inl rfl, Nat.le_refl _, rfl⟩
  obtain ⟨t, ht, hsteps, hlimit⟩ := run_hoist (first :: r) s
  obtain ⟨rest, rest', hrest, hrest'⟩ := h.ticks first
  have refused (i : Interp) (rest : Run Flow) (h : i.exec first = do Run.tick; rest) :
      (i.execLast (some (first :: r))).run s = (.error .stepLimit, stepped t) := by
    have htick : (i.exec first).run t = (.error .stepLimit, stepped t) := by
      rw [h]
      exact run_bind_of_error (run_tick_of_le (by rwa [hsteps, hlimit])) _
    have hall : (i.execAll (first :: r)).run t = (.error .stepLimit, stepped t) :=
      run_bind_of_error htick _
    exact run_bind_of_error ((run_bind_of_ok ht).trans hall) _
  refine ⟨_, _, refused self rest hrest, refused self' rest' hrest', .inr rfl, ?_, hlimit⟩
  exact hsteps ▸ Nat.le_succ t.steps

theorem execAttempt (body : List Stmt) (param : Option Binding)
    (handler finalizer : Option (List Stmt)) :
    c.rel c.cap.FlowWithin (self.execAttempt body param handler finalizer)
      (self'.execAttempt body param handler finalizer) := by
  cases handler with
  | none =>
    exact c.attempt (h.execBlock body) (fun _ => c.pure trivial) c.fail (h.execLast finalizer)
      (h.idle_execLast finalizer)
  | some handler =>
    exact c.attempt (h.execBlock body) (h.bindMessage param) (fun _ => h.execBlock handler)
      (h.execLast finalizer) (h.idle_execLast finalizer)

/-- Machines that are alike on the parts of a statement are alike on the statement. -/
theorem execBody (s : Stmt) : c.rel c.cap.FlowWithin (self.execBody s) (self'.execBody s) := by
  refine c.bind c.tick fun _ _ => ?_
  cases s with
  | expr e => exact c.bind (h.eval e) fun _ _ => c.pure nofun
  | vars decls => exact c.bind (h.declareAll decls) fun _ _ => c.pure nofun
  | function | empty => exact c.pure nofun
  | block body => exact h.execBlock body
  | branch test yes no =>
    refine c.bind (h.eval test) fun v _ => ?_
    split
    · exact h.exec yes
    · split
      · exact h.exec _
      · exact c.pure nofun
  | give e =>
    cases e with
    | none => exact c.pure fun v hv => by cases hv; exact c.sound.undefined
    | some e => exact c.bind (h.eval e) fun v hv => c.pure fun w hw => by cases hw; exact hv
  | leave | again => exact c.pure nofun
  | whileDo test body => exact h.execWhile (some test) body none
  | doWhile body test => exact h.execDoWhile body test
  | count start test update body =>
    dsimp only
    split
    · exact c.bind (h.declareAll _) fun _ _ => h.execWhile test body update
    · exact c.bind (h.eval _) fun _ _ => h.execWhile test body update
    · exact h.execWhile test body update
  | eachOf declares target list body =>
    exact c.bind (h.eval list) fun v hv => c.bind (c.itemsOf hv) fun items _ =>
      h.execEach declares target body items
  | eachIn declares target object body =>
    exact c.bind (h.eval object) fun v _ => h.execEach declares target body _
  | switch value cases => exact h.execSwitch value cases
  | throw e => exact c.bind (h.eval e) fun v _ => c.fault _
  | attempt body param handler finalizer => exact h.execAttempt body param handler finalizer
  | other => exact c.fault _

/-! ### Functions -/

theorem bindParams (params : List Binding) (args : List Value) :
    c.does (self.bindParams params args) (self'.bindParams params args) := by
  fun_induction self.bindParams params args with
  | case1 => exact c.pure trivial
  | case2 b r args => exact h.bind _ _ _
  | case3 args b r hr ih =>
    rw [Interp.bindParams]
    · exact c.bind (h.bind _ _ _) fun _ _ => ih
    · exact hr

/-- Machines that are alike on the parts of a function are alike on its calls. -/
theorem callBody (params : List Binding) (body : Body) (args : List Value) :
    c.gives (self.callBody params body args) (self'.callBody params body args) := by
  refine c.inCall (c.bind (h.bindParams params args) fun _ _ => ?_)
  cases body with
  | expr e => exact h.eval e
  | block stmts =>
    refine c.bind (h.execBlock stmts) fun flow hflow => ?_
    split
    · exact c.pure (hflow _ rfl)
    · exact c.pure c.sound.undefined

/-! ### Scripts -/

theorem runStmts (body : List Stmt) : c.gives (self.runStmts body) (self'.runStmts body) := by
  have result : c.gives Interp.resultValue Interp.resultValue :=
    c.bind (c.lookup? "result") fun v? hv => c.pure (c.sound.within_getD hv)
  fun_induction self.runStmts body with
  | case1 => exact result
  | case2 e assigns =>
    rw [Interp.runStmts, if_pos assigns]
    exact c.bind (h.exec _) fun _ _ => result
  | case3 e assigns =>
    rw [Interp.runStmts, if_neg assigns]
    exact c.bind c.tick fun _ _ => h.eval e
  | case4 s r last ih =>
    rw [Interp.runStmts]
    · refine c.bind (h.exec s) fun flow hflow => ?_
      split
      · exact c.pure (hflow _ rfl)
      · exact ih
    · exact last

/-- Machines that are alike on the parts of a script are alike on the script. -/
theorem run (body : List Stmt) : c.gives (self.run body) (self'.run body) :=
  c.bind (c.hoist body) fun _ _ => h.runStmts body

end Congruence.Alike

/-- Machines that give no meaning to any part are alike. -/
theorem Congruence.alike_zero (c : Congruence) {put put' : String → Value → Run Unit}
    (hput : ∀ key v, c.does (put key v) (put' key v)) :
    c.Alike (interp put 0) (interp put' 0) where
  eval _ := c.exhausted
  exec _ := c.bind c.tick fun _ _ => c.exhausted
  bind _ _ _ := c.exhausted
  assign _ _ := c.exhausted
  call _ _ _ := c.exhausted
  put := hput
  ticks _ := ⟨_, _, rfl, rfl⟩

namespace Congruence.Plain

variable (p : Plain)

theorem does_of_rel {α : Type} {m m' : Run α} (h : p.rel m m') : p.congruence.does m m' :=
  ⟨h, fun _ _ => trivial⟩

theorem gives_of_rel {m m' : Run Value} (h : p.rel m m') : p.congruence.gives m m' :=
  ⟨h, fun v _ => Cap.within_free v⟩

/-- **Machines that differ in the effect of putting** are alike to any depth, if the two effects
are, for a relation that asks for no cap. -/
theorem alike_interp {put put' : String → Value → Run Unit}
    (hput : ∀ key v, p.rel (put key v) (put' key v)) (depth : Nat) :
    p.congruence.Alike (interp put depth) (interp put' depth) := by
  have hput (key : String) (v : Value) : p.congruence.does (put key v) (put' key v) :=
    p.does_of_rel (hput key v)
  induction depth with
  | zero => exact p.congruence.alike_zero hput
  | succ depth ih =>
    exact
      { eval := fun e => p.gives_of_rel (ih.evalBody e).1
        exec := ih.execBody
        bind := fun declare b v => ih.bindBody declare b (Cap.within_free v)
        assign := fun e v => ih.assignBody e (Cap.within_free v)
        call := ih.callBody
        put := hput
        ticks := fun _ => ⟨_, _, rfl, rfl⟩ }

end Congruence.Plain

end Scrape.Script
