import Scrape.Proofs.Script.Renaming.Run

/-!
# Script — Renaming — Machine

A machine that is given the meaning of the parts of a script respects a renaming if it does the same
on parts that are renamed (`Interp.Respects`).  It then does the same on what is made of the parts:
here on lists of expressions, names, members, targets and patterns.
-/

namespace Scrape.Script

open Run

variable (r : Renaming)

/-- The second statement ends like the first one, with a renamed value if it gives one. -/
inductive Flow.Renamed : Flow → Flow → Prop
  | normal : Flow.Renamed .normal .normal
  | give {v v' : Value} : v.Renamed r v' → Flow.Renamed (.give v) (.give v')
  | leave : Flow.Renamed .leave .leave
  | again : Flow.Renamed .again .again

/-- The machine does the same on parts of code that are renamed, for values that are. -/
structure Interp.Respects (i : Interp) : Prop where
  eval {e e' : Expr} : e.Renamed r e' → GivesRenamed r (i.eval e) (i.eval e')
  exec {s s' : Stmt} : s.Renamed r s' → RunRenamed r (Flow.Renamed r) (i.exec s) (i.exec s')
  bind (declare : Bool) {b b' : Binding} {v v' : Value} : b.Renamed r b' → v.Renamed r v' →
    DoesRenamed r (i.bind declare b v) (i.bind declare b' v')
  bindUnseen {a b : String} (v v' : Value) : r.LeavesOut a b →
    DoesRenamed r (i.bind true (.name a) v) (i.bind true (.name b) v')
  assign {e e' : Expr} {v v' : Value} : e.Renamed r e' → v.Renamed r v' →
    DoesRenamed r (i.assign e v) (i.assign e' v')
  call {params params' : List Binding} {body body' : Body} {args args' : List Value} :
    List.Forall₂ (Binding.Renamed r) params params' → body.Renamed r body' →
    ItemsRenamed r args args' →
    GivesRenamed r (i.call params body args) (i.call params' body' args')
  put (key : String) {v v' : Value} : v.Renamed r v' →
    DoesRenamed r (i.put key v) (i.put key v')

variable {r}

namespace Interp

theorem itemsOf_renamed {v v' : Value} (hv : v.Renamed r v') :
    RunRenamed r (ItemsRenamed r) (itemsOf v) (itemsOf v') := by
  unfold itemsOf
  rw [hv.kind_eq]
  obtain ⟨h, h'⟩ | ⟨items, items', h, h', hitems⟩ := exists_of_rel hv.items?
  · rw [h, h']
    exact .fault _
  · rw [h, h']
    exact .pure hitems

theorem isMath_renamed {e e' : Expr} (he : e.Renamed r e') :
    RunRenamed r Eq (isMath e) (isMath e') := by
  cases he with
  | name hab =>
    refine (RunRenamed.lookup? hab).bind fun v? v'? hv => .pure ?_
    rw [rel_isNone hv, decide_eq_decide.mpr (r.eq_iff hab (by decide))]
  | _ => exact .pure rfl

/-- Renamed code is a place to assign to if the code is. -/
theorem isPlace_eq : ∀ {e e' : Expr}, e.Renamed r e' → e.isPlace = e'.isPlace
  | _, _, .member he _ => by rw [Expr.isPlace, Expr.isPlace, isPlace_eq he]
  | _, _, .paren he    => by rw [Expr.isPlace, Expr.isPlace, isPlace_eq he]
  | _, _, .name _      => rfl
  | _, _, .number _ | _, _, .string _ | _, _, .bool _ | _, _, .null | _, _, .regex .. => rfl
  | _, _, .otherLiteral | _, _, .template .. | _, _, .array _ | _, _, .spread _ | _, _, .hole => rfl
  | _, _, .object _ | _, _, .unary .. | _, _, .update .. | _, _, .binary .. => rfl
  | _, _, .assign .. | _, _, .conditional .. | _, _, .sequence _ | _, _, .call .. => rfl
  | _, _, .otherCall | _, _, .construct .. | _, _, .function .. | _, _, .arrow .. => rfl
  | _, _, .otherPlace | _, _, .other => rfl

end Interp

namespace Interp.Respects

variable {self : Interp} (h : self.Respects r)

include h

/-! ### Lists and names -/

theorem callValue {f f' : Value} (hf : f.Renamed r f') {args args' : List Value}
    (hargs : ItemsRenamed r args args') :
    GivesRenamed r (self.callValue f args) (self.callValue f' args') := by
  cases hf with
  | function id hparams hbody => exact h.call hparams hbody hargs
  | _ => exact .fault _

theorem evalItems {items items' : List Expr} (hitems : List.Forall₂ (Expr.Renamed r) items items')
    {acc acc' : List Value} (hacc : ItemsRenamed r acc acc') :
    RunRenamed r (ItemsRenamed r) (self.evalItems acc items) (self.evalItems acc' items') := by
  induction hitems generalizing acc acc' with
  | nil => exact .pure (List.rel_reverse hacc)
  | cons he _ ih =>
    -- stated before the cases, in which the expression is no variable any more
    have hvalue := h.eval he
    cases he with
    | spread he =>
      exact (h.eval he).bind fun v v' hv => (itemsOf_renamed hv).bind fun vs vs' hvs =>
        ih (List.rel_append (List.rel_reverse hvs) hacc)
    | hole => exact ih (.cons .undefined hacc)
    | _ => exact hvalue.bind fun v v' hv => ih (.cons hv hacc)

theorem args {items items' : List Expr} (hitems : List.Forall₂ (Expr.Renamed r) items items') :
    RunRenamed r (ItemsRenamed r) (self.evalItems [] items) (self.evalItems [] items') :=
  h.evalItems hitems .nil

theorem keyOf (otherwise : Form) {name name' : Name} (hname : name.Renamed r name') :
    RunRenamed r Eq (self.keyOf otherwise name) (self.keyOf otherwise name') := by
  cases hname with
  | text s => exact .pure rfl
  | number x => exact .pure rfl
  | computed he => exact (h.eval he).bind fun v v' hv => .pure hv.text_eq
  | other => exact .fault _

theorem memberKey {name name' : Name} (hname : name.Renamed r name') :
    RunRenamed r Eq (self.memberKey name) (self.memberKey name') :=
  h.keyOf .memberAccess hname

theorem propertyKey {name name' : Name} (hname : name.Renamed r name') :
    RunRenamed r Eq (self.propertyKey name) (self.propertyKey name') :=
  h.keyOf .propertyName hname

theorem evalTemplate (acc : String) (texts : List String) {parts parts' : List Expr}
    (hparts : List.Forall₂ (Expr.Renamed r) parts parts') :
    RunRenamed r Eq (self.evalTemplate acc texts parts) (self.evalTemplate acc texts parts') := by
  induction texts generalizing acc parts parts' with
  | nil => exact .pure rfl
  | cons t ts ih =>
    cases hparts with
    | nil => exact .pure rfl
    | cons he hr =>
      refine (h.eval he).bind fun v v' hv => ?_
      rw [hv.text_eq]
      refine (RunRenamed.ofOutcome (P := Eq) (.of_self fun _ _ => rfl)).bind fun s s' hs => ?_
      exact hs ▸ ih s hr

theorem evalFields {fields fields' : List Field}
    (hfields : List.Forall₂ (Field.Renamed r) fields fields') {acc acc' : List (String × Value)}
    (hacc : PropertiesRenamed r acc acc') :
    RunRenamed r (PropertiesRenamed r) (self.evalFields acc fields)
      (self.evalFields acc' fields') := by
  induction hfields generalizing acc acc' with
  | nil => exact .pure hacc
  | cons hf _ ih =>
    cases hf with
    | value hname he =>
      refine (h.propertyKey hname).bind fun key key' hkey => (h.eval he).bind fun v v' hv => ?_
      exact hkey ▸ ih (renamed_put hacc key hv)
    | shorthand hab =>
      exact (RunRenamed.valueOf hab).bind fun v v' hv => ih (renamed_put hacc _ hv)
    | method hname hparams hbody =>
      refine (h.propertyKey hname).bind fun key key' hkey =>
        (RunRenamed.newFunction hparams (.block hbody)).bind fun f f' hf => ?_
      exact hkey ▸ ih (renamed_put hacc key hf)
    | spread he =>
      refine (h.eval he).bind fun v v' hv => ?_
      cases hv with
      | object hmore => exact ih (renamed_putAll hacc hmore)
      | array hitems => exact ih (renamed_putAll hacc (renamed_mapIdx hitems _))
      | _ => exact ih hacc
    | shorthandDefault => exact .fault _
    | other => exact .fault _

/-! ### Members and assignment -/

theorem putBack {place place' : Expr} (hplace : place.Renamed r place') {v v' : Value}
    (hv : v.Renamed r v') : DoesRenamed r (self.putBack place v) (self.putBack place' v') := by
  unfold Interp.putBack
  rw [isPlace_eq hplace]
  split
  · exact h.assign hplace hv
  · exact .pure trivial

theorem assignMember {object object' : Expr} (hobject : object.Renamed r object')
    {name name' : Name} (hname : name.Renamed r name') {v v' : Value} (hv : v.Renamed r v') :
    DoesRenamed r (self.assignMember object name v) (self.assignMember object' name' v') := by
  refine (h.memberKey hname).bind fun key key' hkey => (h.eval hobject).bind fun c c' hc => ?_
  obtain rfl := hkey
  rw [hc.kind_eq]
  obtain ⟨hset, hset'⟩ | ⟨w, w', hset, hset', hw⟩ := exists_of_rel (hc.set? key hv)
  · rw [hset, hset']
    exact .fault _
  · rw [hset, hset']
    exact h.putBack hobject hw

theorem assignBody {target target' : Expr} (htarget : target.Renamed r target') {v v' : Value}
    (hv : v.Renamed r v') :
    DoesRenamed r (self.assignBody target v) (self.assignBody target' v') := by
  cases htarget with
  | name hab => exact .setVar false hab hv
  | member hobject hname => exact h.assignMember hobject hname hv
  | paren he => exact h.assign he hv
  | _ => exact .fault _

theorem evalMember {object object' : Expr} (hobject : object.Renamed r object') {name name' : Name}
    (hname : name.Renamed r name') :
    GivesRenamed r (self.evalMember object name) (self.evalMember object' name') := by
  refine (isMath_renamed hobject).bind fun math math' hmath => ?_
  obtain rfl := hmath
  split
  · refine (h.memberKey hname).bind fun key key' hkey => ?_
    exact hkey ▸ .pure (renamed_mathConstant key)
  · refine (h.eval hobject).bind fun v v' hv => (h.memberKey hname).bind fun key key' hkey => ?_
    obtain rfl := hkey
    rw [hv.isNullish_eq, hv.text_eq]
    split
    · exact RunAlike.bind (P := fun _ _ => True) (.fault _) fun _ _ _ => .pure (hv.get key)
    · exact .pure (hv.get key)

theorem deleteMember {object object' : Expr} (hobject : object.Renamed r object')
    {name name' : Name} (hname : name.Renamed r name') :
    DoesRenamed r (self.deleteMember object name) (self.deleteMember object' name') := by
  refine (h.memberKey hname).bind fun key key' hkey => (h.eval hobject).bind fun v v' hv => ?_
  obtain rfl := hkey
  cases hv with
  | object hfields => exact h.putBack hobject (.object (renamed_erase hfields key))
  | _ => exact .pure trivial

theorem readTarget {target target' : Binding} (htarget : target.Renamed r target') :
    GivesRenamed r (self.readTarget target) (self.readTarget target') := by
  cases htarget with
  | name hab => exact .valueOf hab
  | place he =>
    cases he with
    | member hobject hname => exact h.evalMember hobject hname
    | paren he => exact h.eval he
    | _ => exact .fault _
  | _ => exact .fault _

theorem writeTarget {target target' : Binding} (htarget : target.Renamed r target') {v v' : Value}
    (hv : v.Renamed r v') :
    DoesRenamed r (self.writeTarget target v) (self.writeTarget target' v') := by
  cases htarget with
  | name hab => exact .setVar false hab hv
  | place he =>
    cases he with
    | member hobject hname => exact h.assignMember hobject hname hv
    | paren he => exact h.assign he hv
    | _ => exact .fault _
  | array hitems => exact h.bind false (.array hitems) hv
  | object hfields => exact h.bind false (.object hfields) hv
  | _ => exact .fault _

theorem assignedValue (op : AssignOp) {target target' : Binding}
    (htarget : target.Renamed r target') {e e' : Expr} (he : e.Renamed r e') :
    RunRenamed r (Sum.LiftRel (Value.Renamed r) (Value.Renamed r))
      (self.assignedValue op target e) (self.assignedValue op target' e') := by
  have assignedIf {p : Value → Bool} (hp : ∀ v v', v.Renamed r v' → p v = p v') :
      RunRenamed r (Sum.LiftRel (Value.Renamed r) (Value.Renamed r))
        (do let old ← self.readTarget target
            if p old then return .inl (← self.eval e) else return .inr old)
        (do let old ← self.readTarget target'
            if p old then return .inl (← self.eval e') else return .inr old) := by
    refine (h.readTarget htarget).bind fun old old' hold => ?_
    rw [hp old old' hold]
    split
    · exact (h.eval he).bind fun v v' hv => .pure (.inl hv)
    · exact .pure (.inr hold)
  cases op with
  | plain => exact (h.eval he).bind fun v v' hv => .pure (.inl hv)
  | and => exact assignedIf fun _ _ hv => hv.isTrue_eq
  | or => exact assignedIf fun _ _ hv => by rw [hv.isTrue_eq]
  | nullish => exact assignedIf fun _ _ hv => hv.isNullish_eq
  | compound op =>
    exact (h.readTarget htarget).bind fun old old' hold => (h.eval he).bind fun v v' hv =>
      (RunRenamed.ofOutcome (outcome_binary op hold hv)).bind fun w w' hw => .pure (.inl hw)

theorem evalAssign (op : AssignOp) {target target' : Binding} (htarget : target.Renamed r target')
    {e e' : Expr} (he : e.Renamed r e') :
    GivesRenamed r (self.evalAssign op target e) (self.evalAssign op target' e') := by
  refine (h.assignedValue op htarget he).bind fun result result' hresult => ?_
  cases hresult with
  | inr hv => exact .pure hv
  | inl hv => exact (h.writeTarget htarget hv).bind fun _ _ _ => .pure hv

theorem evalUpdate (before up : Bool) {e e' : Expr} (he : e.Renamed r e') :
    GivesRenamed r (self.evalUpdate before up e) (self.evalUpdate before up e') := by
  refine (h.eval he).bind fun v v' hv => ?_
  rw [hv.toNumber_eq]
  exact (h.assign he (.number _)).bind fun _ _ _ => .pure (.number _)

/-! ### Patterns -/

theorem bindItems (declare : Bool) {items items' : List Binding}
    (hitems : List.Forall₂ (Binding.Renamed r) items items') {v v' : Value} (hv : v.Renamed r v')
    (i : Nat) :
    DoesRenamed r (self.bindItems declare v i items) (self.bindItems declare v' i items') := by
  induction hitems generalizing i with
  | nil => exact .pure trivial
  | cons hb _ ih =>
    have hbind := h.bind declare hb (hv.get (String.ofList (Text.decimal i)))
    cases hb with
    | hole => exact ih (i + 1)
    | rest hb =>
      refine h.bind declare hb (.array ?_)
      cases hv with
      | array hitems => exact List.forall₂_drop i hitems
      | _ => exact .nil
    | _ => exact hbind.bind fun _ _ _ => ih (i + 1)

theorem bindFields (declare : Bool) {fields fields' : List FieldBinding}
    (hfields : List.Forall₂ (FieldBinding.Renamed r) fields fields') {v v' : Value}
    (hv : v.Renamed r v') :
    DoesRenamed r (self.bindFields declare v fields) (self.bindFields declare v' fields') := by
  induction hfields with
  | nil => exact .pure trivial
  | cons hf _ ih =>
    cases hf with
    | @shorthand n default? default'? hab hdefault =>
      -- a default is evaluated only where there is no value
      have set (w w' : Value) (hw : w.Renamed r w') :=
        (RunRenamed.setVar declare hab hw).bind fun _ _ _ => ih
      have hget := hv.get n
      unfold Interp.bindFields
      dsimp only
      generalize v.get n = w at hget
      generalize v'.get n = w' at hget
      have itself : GivesRenamed r (pure w) (pure w') := .pure hget
      cases hdefault with
      | none => cases hget <;> exact itself.bind set
      | some he =>
        cases hget with
        | undefined => exact (h.eval he).bind set
        | _ => exact itself.bind set
    | named hname hb =>
      refine (h.propertyKey hname).bind fun key key' hkey => ?_
      obtain rfl := hkey
      exact (h.bind declare hb (hv.get key)).bind fun _ _ _ => ih
    | rest hb => exact RunAlike.bind (P := fun _ _ => True) (.fault _) fun _ _ _ => ih

theorem bindBody (declare : Bool) {target target' : Binding} (htarget : target.Renamed r target')
    {v v' : Value} (hv : v.Renamed r v') :
    DoesRenamed r (self.bindBody declare target v) (self.bindBody declare target' v') := by
  cases htarget with
  | name hab => exact .setVar declare hab hv
  | array hitems => exact h.bindItems declare hitems hv 0
  | object hfields => exact h.bindFields declare hfields hv
  | withDefault hb he =>
    have itself := h.bind declare hb hv
    cases hv with
    | undefined => exact (h.eval he).bind fun w w' hw => h.bind declare hb hw
    | _ => exact itself
  | place he =>
    unfold Interp.bindBody
    dsimp only
    split
    · exact .fault _
    · exact h.assign he hv
  | _ => exact .fault _

theorem declareAll {decls decls' : List Declarator}
    (hdecls : List.Forall₂ (Declarator.Renamed r) decls decls') :
    DoesRenamed r (self.declareAll decls) (self.declareAll decls') := by
  induction hdecls with
  | nil => exact .pure trivial
  | cons hd _ ih =>
    obtain ⟨hb, hinit⟩ := hd
    have declared {v v' : Value} (hv : v.Renamed r v') :=
      (h.bind true hb hv).bind fun _ _ _ => ih
    cases hinit with
    | none => exact declared .undefined
    | some he => exact (h.eval he).bind fun v v' hv => declared hv

end Interp.Respects

end Scrape.Script
