import Scrape.Proofs.Script.Renaming.Call
import Scrape.Script.Evaluate

/-!
# Script — Renaming — Statement

A machine that respects a renaming does the same on statements, on calls of functions and on scripts.

Main statement (`respects_interp`): the machine that runs scripts respects every renaming, to any
depth.
-/

namespace Scrape.Script

open Run

variable {r : Renaming}

namespace Interp

theorem hoist_renamed {body body' : List Stmt} (h : List.Forall₂ (Stmt.Renamed r) body body') :
    DoesRenamed r (hoist body) (hoist body') := by
  induction h with
  | nil => exact .pure trivial
  | cons hs _ ih =>
    cases hs with
    | function hab hparams hbody =>
      exact (RunRenamed.newFunction hparams (.block hbody)).bind fun f f' hf =>
        (RunRenamed.setVar true hab hf).bind fun _ _ _ => ih
    | _ => exact ih

end Interp

namespace Interp.Respects

variable {self : Interp} (h : self.Respects r)

include h

/-! ### Statements -/

theorem execAll {body body' : List Stmt} (hbody : List.Forall₂ (Stmt.Renamed r) body body') :
    RunRenamed r (Flow.Renamed r) (self.execAll body) (self.execAll body') := by
  induction hbody with
  | nil => exact .pure .normal
  | cons hs _ ih =>
    refine (h.exec hs).bind fun flow flow' hflow => ?_
    cases hflow with
    | normal => exact ih
    | give hv => exact .pure (.give hv)
    | leave => exact .pure .leave
    | again => exact .pure .again

theorem execBlock {body body' : List Stmt} (hbody : List.Forall₂ (Stmt.Renamed r) body body') :
    RunRenamed r (Flow.Renamed r) (self.execBlock body) (self.execBlock body') :=
  (hoist_renamed hbody).bind fun _ _ _ => h.execAll hbody

theorem holds {test test' : Option Expr} (htest : Option.Rel (Expr.Renamed r) test test') :
    RunRenamed r Eq (self.holds test) (self.holds test') := by
  cases htest with
  | none => exact .pure rfl
  | some he => exact (h.eval he).bind fun v v' hv => .pure hv.isTrue_eq

omit h in
theorem renamed_afterRound {flow flow' : Flow} (hflow : flow.Renamed r flow') :
    Option.Rel (Flow.Renamed r) (afterRound flow) (afterRound flow') := by
  cases hflow with
  | normal => exact .none
  | give hv => exact .some (.give hv)
  | leave => exact .some .normal
  | again => exact .none

theorem execWhile {test test' : Option Expr} (htest : Option.Rel (Expr.Renamed r) test test')
    {body body' : Stmt} (hbody : body.Renamed r body') {update update' : Option Expr}
    (hupdate : Option.Rel (Expr.Renamed r) update update') :
    RunRenamed r (Flow.Renamed r) (self.execWhile test body update)
      (self.execWhile test' body' update') := by
  refine .repeatedly ((h.holds htest).bind fun holds _ hholds => ?_)
  obtain rfl := hholds
  split
  · exact .pure (.some .normal)
  · refine (h.exec hbody).bind fun flow flow' hflow => ?_
    obtain ⟨hnone, hnone'⟩ | ⟨next, next', hsome, hsome', hnext⟩ :=
      exists_of_rel (renamed_afterRound hflow)
    · rw [hnone, hnone']
      cases hupdate with
      | none => exact .pure .none
      | some he => exact (h.eval he).bind fun _ _ _ => .pure .none
    · rw [hsome, hsome']
      exact .pure (.some hnext)

theorem execDoWhile {body body' : Stmt} (hbody : body.Renamed r body') {test test' : Expr}
    (htest : test.Renamed r test') :
    RunRenamed r (Flow.Renamed r) (self.execDoWhile body test) (self.execDoWhile body' test') := by
  refine .repeatedly ((h.exec hbody).bind fun flow flow' hflow => ?_)
  obtain ⟨hnone, hnone'⟩ | ⟨next, next', hsome, hsome', hnext⟩ :=
    exists_of_rel (renamed_afterRound hflow)
  · rw [hnone, hnone']
    refine (h.eval htest).bind fun v v' hv => ?_
    rw [hv.isTrue_eq]
    split
    · exact .pure .none
    · exact .pure (.some .normal)
  · rw [hsome, hsome']
    exact .pure (.some hnext)

theorem execEach (declare : Bool) {target target' : Binding} (htarget : target.Renamed r target')
    {body body' : Stmt} (hbody : body.Renamed r body') {values values' : List Value}
    (hvalues : ItemsRenamed r values values') :
    RunRenamed r (Flow.Renamed r) (self.execEach declare target body values)
      (self.execEach declare target' body' values') := by
  induction hvalues with
  | nil => exact .pure .normal
  | cons hv _ ih =>
    refine RunAlike.tick.bind fun _ _ _ => (h.bind declare htarget hv).bind fun _ _ _ =>
      (h.exec hbody).bind fun flow flow' hflow => ?_
    obtain ⟨hnone, hnone'⟩ | ⟨next, next', hsome, hsome', hnext⟩ :=
      exists_of_rel (renamed_afterRound hflow)
    · rw [hnone, hnone']
      exact ih
    · rw [hsome, hsome']
      exact .pure hnext

theorem matchingCases {v v' : Value} (hv : v.Renamed r v') {cases cases' : List Case}
    (hcases : List.Forall₂ (Case.Renamed r) cases cases') :
    RunRenamed r (Option.Rel (List.Forall₂ (Case.Renamed r))) (self.matchingCases v cases)
      (self.matchingCases v' cases') := by
  induction hcases with
  | nil => exact .pure .none
  | cons hc hr ih =>
    obtain ⟨htest, hbody⟩ := hc
    cases htest with
    | none => exact ih
    | some he =>
      refine (h.eval he).bind fun w w' hw => ?_
      rw [hw.same_eq hv]
      split
      · exact .pure (.some (.cons (.mk (.some he) hbody) hr))
      · exact ih

omit h in
theorem renamed_defaultCases {cases cases' : List Case}
    (hcases : List.Forall₂ (Case.Renamed r) cases cases') :
    List.Forall₂ (Case.Renamed r) (defaultCases cases) (defaultCases cases') := by
  induction hcases with
  | nil => exact .nil
  | cons hc hr ih =>
    obtain ⟨htest, hbody⟩ := hc
    cases htest with
    | none => exact .cons (.mk .none hbody) hr
    | some _ => exact ih

theorem execCases {cases cases' : List Case}
    (hcases : List.Forall₂ (Case.Renamed r) cases cases') :
    RunRenamed r (Flow.Renamed r) (self.execCases cases) (self.execCases cases') := by
  induction hcases with
  | nil => exact .pure .normal
  | cons hc _ ih =>
    obtain ⟨htest, hbody⟩ := hc
    refine (h.execBlock hbody).bind fun flow flow' hflow => ?_
    cases hflow with
    | normal => exact ih
    | leave => exact .pure .normal
    | give hv => exact .pure (.give hv)
    | again => exact .pure .again

theorem execSwitch {value value' : Expr} (hvalue : value.Renamed r value') {cases cases' : List Case}
    (hcases : List.Forall₂ (Case.Renamed r) cases cases') :
    RunRenamed r (Flow.Renamed r) (self.execSwitch value cases)
      (self.execSwitch value' cases') := by
  refine (h.eval hvalue).bind fun v v' hv => (h.matchingCases hv hcases).bind
    fun chosen? chosen'? hchosen => ?_
  cases hchosen with
  | none => exact h.execCases (renamed_defaultCases hcases)
  | some hchosen => exact h.execCases hchosen

/-- The message of a failure is the same on both sides, or is not seen. -/
theorem bindMessage {param param' : Option Binding} (hparam : CatchRenamed r param param')
    {f f' : Cause} (hf : f.val.Renamed r f'.val) :
    DoesRenamed r (self.bindMessage param f) (self.bindMessage param' f') := by
  cases hparam with
  | none => exact .pure trivial
  | kept hkeeps hb =>
    have heq : f.val.message = f'.val.message := congrArg Failure.message (hf.eq hkeeps)
    exact h.bind true hb (heq ▸ .string _)
  | unseen hab => exact h.bindUnseen _ _ hab

theorem execLast {finalizer finalizer' : Option (List Stmt)}
    (hfinalizer : Option.Rel (List.Forall₂ (Stmt.Renamed r)) finalizer finalizer') :
    RunRenamed r (Option.Rel (Flow.Renamed r)) (self.execLast finalizer)
      (self.execLast finalizer') := by
  cases hfinalizer with
  | none => exact .pure .none
  | some hbody =>
    refine (h.execBlock hbody).bind fun flow flow' hflow => ?_
    cases hflow with
    | give hv => exact .pure (.some (.give hv))
    | _ => exact .pure .none

theorem execAttempt {body body' : List Stmt} (hbody : List.Forall₂ (Stmt.Renamed r) body body')
    {param param' : Option Binding} (hparam : CatchRenamed r param param')
    {handler handler' : Option (List Stmt)}
    (hhandler : Option.Rel (List.Forall₂ (Stmt.Renamed r)) handler handler')
    {finalizer finalizer' : Option (List Stmt)}
    (hfinalizer : Option.Rel (List.Forall₂ (Stmt.Renamed r)) finalizer finalizer') :
    RunRenamed r (Flow.Renamed r) (self.execAttempt body param handler finalizer)
      (self.execAttempt body' param' handler' finalizer') := by
  cases hhandler with
  | none =>
    exact (h.execBlock hbody).attempt (fun _ _ _ => .pure trivial) (fun _ _ hf => .throw hf)
      (h.execLast hfinalizer)
  | some hhandler =>
    exact (h.execBlock hbody).attempt (fun _ _ hf => h.bindMessage hparam hf)
      (fun _ _ _ => h.execBlock hhandler) (h.execLast hfinalizer)

/-- **A machine that respects a renaming** on the parts of a statement does on the statement. -/
theorem execBody {s s' : Stmt} (hs : s.Renamed r s') :
    RunRenamed r (Flow.Renamed r) (self.execBody s) (self.execBody s') := by
  refine RunAlike.tick.bind fun _ _ _ => ?_
  cases hs with
  | expr he => exact (h.eval he).bind fun _ _ _ => .pure .normal
  | vars hdecls => exact (h.declareAll hdecls).bind fun _ _ _ => .pure .normal
  | function | empty => exact .pure .normal
  | block hbody => exact h.execBlock hbody
  | branch htest hyes hno =>
    refine (h.eval htest).bind fun v v' hv => ?_
    rw [hv.isTrue_eq]
    split
    · exact h.exec hyes
    · cases hno with
      | none => exact .pure .normal
      | some hno => exact h.exec hno
  | give he =>
    cases he with
    | none => exact .pure (.give .undefined)
    | some he => exact (h.eval he).bind fun v v' hv => .pure (.give hv)
  | leave => exact .pure .leave
  | again => exact .pure .again
  | whileDo htest hbody => exact h.execWhile (.some htest) hbody .none
  | doWhile hbody htest => exact h.execDoWhile hbody htest
  | count hstart htest hupdate hbody =>
    have hloop := h.execWhile htest hbody hupdate
    cases hstart with
    | none => exact hloop
    | some hstart =>
      cases hstart with
      | vars hdecls => exact (h.declareAll hdecls).bind fun _ _ _ => hloop
      | expr he => exact (h.eval he).bind fun _ _ _ => hloop
      | _ => exact hloop
  | eachOf declares htarget hlist hbody =>
    exact (h.eval hlist).bind fun v v' hv => (itemsOf_renamed hv).bind fun items items' hitems =>
      h.execEach declares htarget hbody hitems
  | eachIn declares htarget hobject hbody =>
    exact (h.eval hobject).bind fun v v' hv =>
      h.execEach declares htarget hbody (renamed_keysOf hv)
  | switch hvalue hcases => exact h.execSwitch hvalue hcases
  | throw he =>
    refine (h.eval he).bind fun v v' hv => ?_
    rw [hv.text_eq]
    exact .fault _
  | attempt hbody hparam hhandler hfinalizer =>
    exact h.execAttempt hbody hparam hhandler hfinalizer
  | other => exact .fault _

/-! ### Functions -/

theorem bindParams {params params' : List Binding}
    (hparams : List.Forall₂ (Binding.Renamed r) params params') {args args' : List Value}
    (hargs : ItemsRenamed r args args') :
    DoesRenamed r (self.bindParams params args) (self.bindParams params' args') := by
  induction hparams generalizing args args' with
  | nil => exact .pure trivial
  | cons hb _ ih =>
    have hfirst := h.bind true hb (rel_getD (forall₂_head? hargs) .undefined)
    have hrest := ih (forall₂_tail hargs)
    cases hb with
    | rest hb => exact h.bind true hb (.array hargs)
    | _ => exact hfirst.bind fun _ _ _ => hrest

/-- **A machine that respects a renaming** on the parts of a function does on its calls. -/
theorem callBody {params params' : List Binding}
    (hparams : List.Forall₂ (Binding.Renamed r) params params') {body body' : Body}
    (hbody : body.Renamed r body') {args args' : List Value} (hargs : ItemsRenamed r args args') :
    GivesRenamed r (self.callBody params body args) (self.callBody params' body' args') := by
  refine .inCall ((h.bindParams hparams hargs).bind fun _ _ _ => ?_)
  cases hbody with
  | expr he => exact h.eval he
  | block hstmts =>
    refine (h.execBlock hstmts).bind fun flow flow' hflow => ?_
    cases hflow with
    | give hv => exact .pure hv
    | _ => exact .pure .undefined

/-! ### Scripts -/

omit h in
theorem isAssignment_eq {e e' : Expr} (he : e.Renamed r e') : e.isAssignment = e'.isAssignment := by
  cases he <;> rfl

theorem runStmts (hresult : r.names "result" "result") {body body' : List Stmt}
    (hbody : List.Forall₂ (Stmt.Renamed r) body body') :
    GivesRenamed r (self.runStmts body) (self.runStmts body') := by
  have result : GivesRenamed r resultValue resultValue :=
    (RunRenamed.lookup? hresult).bind fun v? v'? hv => .pure (rel_getD hv .undefined)
  induction hbody with
  | nil => exact result
  | @cons s s' rest rest' hs hr ih =>
    -- all but an expression that stands last are run for their effect
    have continued (hlast : ∀ e, s = .expr e → rest = [] → False)
        (hlast' : ∀ e, s' = .expr e → rest' = [] → False) :
        GivesRenamed r (self.runStmts (s :: rest)) (self.runStmts (s' :: rest')) := by
      rw [Interp.runStmts, Interp.runStmts]
      · refine (h.exec hs).bind fun flow flow' hflow => ?_
        cases hflow with
        | give hv => exact .pure hv
        | _ => exact ih
      · exact hlast'
      · exact hlast
    cases hs with
    | expr he =>
      cases hr with
      | cons => exact continued nofun nofun
      | nil =>
        simp only [Interp.runStmts, isAssignment_eq he]
        split
        · exact (h.exec (.expr he)).bind fun _ _ _ => result
        · exact RunAlike.tick.bind fun _ _ _ => h.eval he
    | _ => exact continued nofun nofun

/-- **A machine that respects a renaming** on the parts of a script does on the script, if the script
gives what its variable of the same name holds on both sides. -/
theorem run (hresult : r.names "result" "result") {body body' : List Stmt}
    (hbody : List.Forall₂ (Stmt.Renamed r) body body') :
    GivesRenamed r (self.run body) (self.run body') :=
  (hoist_renamed hbody).bind fun _ _ _ => h.runStmts hresult hbody

end Interp.Respects

/-- **The machine that runs scripts** respects every renaming, to any depth, if the effect of putting
into the session does. -/
theorem respects_interp {put : String → Value → Run Unit}
    (hput : ∀ (key : String) (v v' : Value), v.Renamed r v' →
      DoesRenamed r (put key v) (put key v')) :
    ∀ depth, (interp put depth).Respects r
  | 0 =>
    { eval := fun _ => .throw (.same _)
      exec := fun _ => RunAlike.tick.bind fun _ _ _ => .throw (.same _)
      bind := fun _ _ _ _ _ _ _ => .throw (.same _)
      bindUnseen := fun _ _ _ => .throw (.same _)
      assign := fun _ _ => .throw (.same _)
      call := fun _ _ _ => .throw (.same _)
      put := fun key _ _ hv => hput key _ _ hv }
  | depth + 1 =>
    { eval := (respects_interp hput depth).evalBody
      exec := (respects_interp hput depth).execBody
      bind := fun declare _ _ _ _ hb hv => (respects_interp hput depth).bindBody declare hb hv
      bindUnseen := fun v v' hab => .setVar_of_leavesOut hab.1 hab.2 v v'
      assign := fun he hv => (respects_interp hput depth).assignBody he hv
      call := fun hparams hbody hargs => (respects_interp hput depth).callBody hparams hbody hargs
      put := fun key _ _ hv => hput key _ _ hv }

end Scrape.Script
