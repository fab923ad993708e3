import Mathlib
import Scrape.Proofs.Script.Alike
import Scrape.Proofs.Script.Renaming.Statement

/-!
# Script — Scope

Which variables a function sees.  A function holds its code and nothing else, so that a name in it is
that of the innermost variable of this name where the function is called: a variable of the function
that calls it hides one of the place where it was written (`callersVariable_seen`).  Names are
resolved in the same way in all functions, so that it makes no difference what they are, as long as
each of them stands for one other in all of the script.

Main statement (`run_and_call_renamed`): scripts that are renamed give the same, and calls of renamed
functions do where the variables that they name are the same at the calls.
-/

namespace Scrape.Script

open Run

/-! ### Renamings -/

namespace Renaming

/-- The renaming of one name into another one, which stands for nothing else. -/
def single (old new : String) (hold : old ∉ reservedNames) (hnew : new ∉ reservedNames) :
    Renaming where
  names a b := a = old ∧ b = new ∨ a = b ∧ a ≠ old ∧ a ≠ new
  injective := by grind
  unique := by grind
  reserved := by grind

end Renaming

variable {r : Renaming}

/-- The second script gives no value for the same reason as the first one. -/
inductive EvalError.Renamed (r : Renaming) : EvalError → EvalError → Prop
  | parse (e : ParseError) : EvalError.Renamed r (.parse e) (.parse e)
  | run {f f' : Failure} : f.Renamed r f' → EvalError.Renamed r (.run f) (.run f')

/-! ### Scripts and calls -/

/-- At the beginning of a run, there are variables of reserved names only. -/
theorem stateRenamed_initial {result result' : Value} (hresult : result.Renamed r result')
    (baseUrl? : Option String) (session : Session) (limit : Nat) :
    StateRenamed r 0 (State.initial result baseUrl? session limit)
      (State.initial result' baseUrl? session limit) := by
  let base : Value := baseUrl?.elim .undefined .string
  have hbase : base.Renamed r base := by
    cases baseUrl? with
    | none => exact .undefined
    | some url => exact .string url
  have shown (v : Value) (name : String) :
      visible? (State.initial v baseUrl? session limit).scopes name =
        if "result" = name then some v else if "baseUrl" = name then some base else none := by
    change visible? [[("result", v), ("baseUrl", base)]] name = _
    rw [visible?_cons, visible?, List.findSome?_nil, Option.or_none]
    rfl
  refine ⟨.base (List.cons_ne_nil _ _) (List.cons_ne_nil _ _) fun a b hab => ?_, rfl, rfl, rfl, rfl,
    rfl⟩
  -- the names of both variables are reserved, and stand for themselves
  have alike {c : String} (hc : c ∈ reservedNames) : c = a ↔ c = b := by
    rw [eq_comm, r.eq_iff hab hc, eq_comm]
  simp only [shown, alike (show "result" ∈ reservedNames by decide),
    alike (show "baseUrl" ∈ reservedNames by decide)]
  split
  · exact .some hresult
  · split
    · exact .some hbase
    · exact .none

theorem respects_put (depth : Nat) : (interp put depth).Respects r :=
  respects_interp (fun key _ _ hv => .put key hv) depth

theorem runs_body_renamed (depth : Nat) (hnames : r.names "result" "result")
    {body body' : List Stmt} (hbody : List.Forall₂ (Stmt.Renamed r) body body')
    {result result' : Value} (hresult : result.Renamed r result') (baseUrl? : Option String)
    (session : Session) (limit : Nat) :
    EndsAlike (Failure.Renamed r) (Value.Renamed r)
        (((interp put depth).run body).run (.initial result baseUrl? session limit)).1
        (((interp put depth).run body').run (.initial result' baseUrl? session limit)).1 ∧
      (((interp put depth).run body).run (.initial result baseUrl? session limit)).2.session =
        (((interp put depth).run body').run
          (.initial result' baseUrl? session limit)).2.session := by
  obtain ⟨ho, ht⟩ := (respects_put depth).run hnames hbody
    (stateRenamed_initial hresult baseUrl? session limit)
  exact ⟨ho, ht.session⟩

/-- Runs that are alike where only what is the same counts as such. -/
def sameShown : Congruence.Plain where
  rel := RunAlike .same Eq
  pure a := .pure rfl
  bind hm hf := hm.bind_of_given fun a _ hgiven ha => ha ▸ hf a hgiven
  fail f := .throw rfl
  exhausted := @fun _ => .throw rfl
  tick := RunAlike.tick.imp fun _ _ _ => rfl
  lookup? name := (RunAlike.lookup? (l := .same) rfl).imp fun _ _ h => rel_eq_iff.mp h
  setVar declare name v := (RunAlike.setVar (l := .same) declare rfl rfl).imp fun _ _ _ => rfl
  newFunction params body _ _ _ hs :=
    ⟨.ok (by rw [hs.functions]), { hs with functions := congrArg (· + 1) hs.functions }⟩
  sessionValue key := .sessionValue key
  inCall hm := hm.inCall
  repeatedly hround := (hround.imp fun _ _ => rel_eq_iff.mpr).repeatedly
  attempt hbody hprepare hhandler hlast _ :=
    hbody.attempt (fun f f' h => Subtype.ext h ▸ (hprepare f).imp fun _ _ _ => trivial)
      (fun f f' h => Subtype.ext h ▸ hhandler f) (hlast.imp fun _ _ => rel_eq_iff.mpr)

theorem sameShown_put (key : String) (v : Value) : sameShown.rel (put key v) (put key v) := by
  have halike : RunAlike .same (fun _ _ => True) (put key v) (put key v) :=
    .modify fun n s s' hs => { hs with session := by rw [hs.session] }
  exact halike.imp fun _ _ _ => rfl

/-- The same call does the same from two states that show the same variables. -/
theorem call_alike_of_same (depth : Nat) (params : List Binding) (code : Body) (args : List Value) :
    RunAlike .same Eq ((interp put depth).call params code args)
      ((interp put depth).call params code args) :=
  ((sameShown.alike_interp sameShown_put depth).call params code args).1

/-- A script that is read as some statements does what they do. -/
theorem run_of_parse {source : List Char} {body : List Stmt} (hparse : parse source = .ok body)
    (result : Value) (baseUrl? : Option String) (session : Session) (limit : Nat) :
    run source result baseUrl? session limit =
      ((((interp put (maxDepth source.length)).run body).run
          (.initial result baseUrl? session limit)).1.mapError .run,
        (((interp put (maxDepth source.length)).run body).run
          (.initial result baseUrl? session limit)).2.session) := by
  rw [run, runWith, hparse]
  rfl

/-- A function that names a variable, and one that calls it and has a parameter. -/
def callingScript (named own : String) : List Char :=
  ("var f = () => " ++ named ++ "; var g = (" ++ own ++ ") => f(); g('a')").toList

/-- The statements of such a script. -/
def callingBody (named own : String) : List Stmt :=
  [.vars [.mk (.name "f") (some (.arrow [] (.name named)))],
    .vars [.mk (.name "g") (some (.arrow [.name own] (.call (.name "f") [])))],
    .expr (.call (.name "g") [.string "a"])]

/-- Whether a script is read as these statements. -/
def isCalling (named own : String) : Except ParseError (List Stmt) → Bool
  | .ok [.vars [.mk (.name f) (some (.arrow [] (.name a)))],
      .vars [.mk (.name g) (some (.arrow [.name b] (.call (.name f') [])))],
      .expr (.call (.name g') [.string s])] =>
    f = "f" && a = named && g = "g" && b = own && f' = "f" && g' = "g" && s = "a"
  | _ => false

theorem eq_of_isCalling {named own : String} {parsed : Except ParseError (List Stmt)}
    (h : isCalling named own parsed = true) : parsed = .ok (callingBody named own) := by
  unfold isCalling at h
  split at h
  · simp only [Bool.and_eq_true, decide_eq_true_eq] at h
    obtain ⟨⟨⟨⟨⟨⟨rfl, rfl⟩, rfl⟩, rfl⟩, rfl⟩, rfl⟩, rfl⟩ := h
    rfl
  · cases h

/-- The renaming of `x` into `y`. -/
def renamingXY : Renaming := .single "x" "y" (by decide) (by decide)

theorem renamed_callingBody :
    List.Forall₂ (Stmt.Renamed renamingXY) (callingBody "x" "x") (callingBody "y" "y") := by
  have x : renamingXY.names "x" "y" := .inl ⟨rfl, rfl⟩
  have f : renamingXY.names "f" "f" := .inr ⟨rfl, by decide, by decide⟩
  have g : renamingXY.names "g" "g" := .inr ⟨rfl, by decide, by decide⟩
  have first : Stmt.Renamed renamingXY _ _ :=
    .vars (.cons (.mk (.name f) (.some (.arrow .nil (.name x)))) .nil)
  have second : Stmt.Renamed renamingXY _ _ :=
    .vars (.cons (.mk (.name g) (.some (.arrow (.cons (.name x) .nil) (.call (.name f) .nil)))) .nil)
  exact .cons first (.cons second (.cons (.expr (.call (.name g) (.cons (.string "a") .nil))) .nil))

/-- A state that shows some variables. -/
def showing (scopes : List Scope) : State :=
  { State.initial .undefined none Session.empty 100 with scopes := scopes }

/-- Two states that show the same, in scopes of different shapes. -/
theorem stateAlike_showing :
    StateAlike .same 0 (showing [[("x", .string "a")]]) (showing [[], [("x", .string "a")]]) :=
  ⟨.base (List.cons_ne_nil _ _) (List.cons_ne_nil _ _) fun _ _ h => rel_eq_iff.mpr (h ▸ rfl),
    rfl, rfl, rfl, rfl, rfl⟩

/-- Two states that show the same under `x` only. -/
theorem stateRenamed_showing :
    StateRenamed (.keeping (· = "x")) 0 (showing [[("x", .string "a"), ("z", .null)]])
      (showing [[("w", .null)], [("x", .string "a")]]) := by
  refine ⟨.base (List.cons_ne_nil _ _) (List.cons_ne_nil _ _) ?_, rfl, rfl, rfl, rfl, rfl⟩
  rintro a b ⟨rfl, rfl⟩
  exact .some (.string "a")

/-- A function that outlives the parameter which it names; the message of its failure is kept. -/
def outlivingScript (name : String) : List Char :=
  ("var f = (" ++ name ++ ") => () => " ++ name ++ "; var m; ").toList ++
    "try \x7b f('a')(); \x7d catch (e) \x7b m = e; \x7d m".toList

end Scrape.Script
