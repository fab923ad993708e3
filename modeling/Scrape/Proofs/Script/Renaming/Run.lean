import Scrape.Proofs.Script.Renaming.Method

/-!
# Script — Renaming — Run

Runs that do the same up to the names of variables: they are alike (`RunAlike`) where values and
failures count as the same that are renamed.  Here are the runs that see names, values and code.
-/

namespace Scrape.Script

open Run

/-- What is renamed counts as the same. -/
def Renaming.likeness (r : Renaming) : Likeness where
  names := r.names
  injective := r.injective
  unique := r.unique
  value := Value.Renamed r
  failure := Failure.Renamed r
  failure_refl := .same
  isCatchable_eq := Failure.Renamed.isCatchable_eq

variable (r : Renaming)

/-- The second state is the first one, with its variables renamed. -/
abbrev StateRenamed (n : Nat) (s s' : State) : Prop := StateAlike r.likeness n s s'

/-- The second run does what the first one does, up to the names of variables. -/
abbrev RunRenamed {α : Type} (P : α → α → Prop) (m m' : Run α) : Prop := RunAlike r.likeness P m m'

/-- The second run has the effect of the first one, up to the names of variables. -/
abbrev DoesRenamed {α : Type} (m m' : Run α) : Prop := RunRenamed r (fun _ _ => True) m m'

/-- The second run gives the value of the first one, renamed. -/
abbrev GivesRenamed (m m' : Run Value) : Prop := RunRenamed r (Value.Renamed r) m m'

variable {r}

namespace RunRenamed

variable {α : Type} {P : α → α → Prop}

theorem ofOutcome {o o' : Outcome α} (h : OutcomeRenamed r P o o') :
    RunRenamed r P (Run.ofOutcome o) (Run.ofOutcome o') :=
  RunAlike.ofOutcome (l := r.likeness) h

/-! ### Variables -/

theorem lookup? {a b : String} (hab : r.names a b) :
    RunRenamed r (ValueRenamed? r) (Run.lookup? a) (Run.lookup? b) :=
  RunAlike.lookup? (l := r.likeness) hab

theorem setVar (declare : Bool) {a b : String} (hab : r.names a b) {v v' : Value}
    (hv : v.Renamed r v') : DoesRenamed r (Run.setVar declare a v) (Run.setVar declare b v') :=
  RunAlike.setVar (l := r.likeness) declare hab hv

theorem valueOf_of_not_mem {name : String} (h : name ∉ reservedNames) :
    Run.valueOf name = Run.lookup? name >>= fun v? =>
      v?.elim (Run.fault (.notDefined name)) Pure.pure := by
  unfold Run.valueOf
  congr 1
  funext v?
  cases v? with
  | some v => rfl
  | none =>
    dsimp only
    split
    case h_4 => rfl
    -- the names that have a value of their own
    all_goals exact absurd (by decide) h

/-- A name that is no variable has a value by itself only if it is reserved. -/
theorem valueOf {a b : String} (hab : r.names a b) :
    GivesRenamed r (Run.valueOf a) (Run.valueOf b) := by
  obtain rfl | ⟨ha, hb⟩ := r.eq_or_not_mem hab
  · refine (lookup? hab).bind fun v? v'? hv => ?_
    cases hv with
    | some hv => exact .pure hv
    | none =>
      dsimp only
      split
      · exact .pure .undefined
      · exact .pure (.number _)
      · exact .pure (.number _)
      · exact .fault _
  · rw [valueOf_of_not_mem ha, valueOf_of_not_mem hb]
    refine (lookup? hab).bind fun v? v'? hv => ?_
    cases hv with
    | some hv => exact .pure hv
    | none => exact .throw (.notDefined hab)

theorem newFunction {params params' : List Binding} {body body' : Body}
    (hparams : List.Forall₂ (Binding.Renamed r) params params') (hbody : body.Renamed r body') :
    GivesRenamed r (Run.newFunction params body) (Run.newFunction params' body') := by
  intro n s s' hs
  refine ⟨.ok ?_, { hs with functions := congrArg (· + 1) hs.functions }⟩
  rw [hs.functions]
  exact .function _ hparams hbody

/-! ### The session -/

theorem put (key : String) {v v' : Value} (hv : v.Renamed r v') :
    DoesRenamed r (Run.put key v) (Run.put key v') :=
  .modify fun n s s' hs => { hs with session := by rw [hs.session, hv.output_eq] }

end RunRenamed

end Scrape.Script
