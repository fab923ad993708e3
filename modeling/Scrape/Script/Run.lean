import Scrape.Script.Operator
import Scrape.Session

/-!
# Script — Run

What a run of a script can see and change: the session, the variables of the calls that are under
way, and the steps it has taken.  A name is looked up in the innermost call first.
-/

namespace Scrape.Script

/-- The variables of a call. -/
abbrev Scope := List (String × Value)

/-- The state of a run: the session, the scopes with the innermost first, the steps it has taken or
has been refused, the steps it may take, how many calls are under way, and how many functions have
been made. -/
structure State where
  session : Session
  scopes : List Scope
  steps : Nat
  limit : Nat
  depth : Nat
  functions : Nat

namespace State

/-- The steps that the run may still take. -/
def stepsLeft (s : State) : Nat := s.limit - s.steps

/-- The value of a variable. -/
def lookup? (name : String) (s : State) : Option Value := s.scopes.findSome? (Keyed.get? name)

/-- The state with a variable set in the innermost scope. -/
def declare (name : String) (v : Value) (s : State) : State :=
  match s.scopes with
  | []          => s
  | inner :: r  => { s with scopes := Keyed.put name v inner :: r }

/-- The scopes with a variable set where it is found, or in the outermost scope. -/
def setIn (name : String) (v : Value) : List Scope → List Scope
  | []          => []
  | [outermost] => [Keyed.put name v outermost]
  | scope :: r  =>
    if Keyed.has name scope then Keyed.put name v scope :: r else scope :: setIn name v r

/-- The state with a variable set where it is found, or in the outermost scope. -/
def setVar (name : String) (v : Value) (s : State) : State :=
  { s with scopes := setIn name v s.scopes }

/-- The state at the beginning of a call. -/
def enter (s : State) : State := { s with scopes := [] :: s.scopes, depth := s.depth + 1 }

/-- The state after a call. -/
def leave (s : State) : State := { s with scopes := s.scopes.tail, depth := s.depth - 1 }

end State

/-- A part of a run.  What it has changed stays changed when it fails. -/
abbrev Run := ExceptT Failure (StateM State)

namespace Run

/-- Fails with a fault. -/
def fault {α : Type} (f : Fault) : Run α := throw (.fault f)

/-- The outcome of something that sees no state. -/
def ofOutcome {α : Type} : Outcome α → Run α
  | .ok a    => pure a
  | .error f => throw f.val

/-- Takes a step, or is refused it. -/
def tick : Run Unit := do
  let s ← get
  set { s with steps := s.steps + 1 }
  if s.limit ≤ s.steps then throw .stepLimit

/-- The value of a variable. -/
def lookup? (name : String) : Run (Option Value) := return (← get).lookup? name

/-- Sets a variable in the innermost scope, or, if it is not declared, where it is found. -/
def setVar (declare : Bool) (name : String) (v : Value) : Run Unit :=
  modify fun s => if declare then s.declare name v else s.setVar name v

/-- The value of a name: a variable, or one of the constants. -/
def valueOf (name : String) : Run Value := do
  match ← lookup? name with
  | some v => return v
  | none   =>
    match name with
    | "undefined" => return .undefined
    | "NaN"       => return .number .nan
    | "Infinity"  => return .number (.infinite false)
    | _           => fault (.notDefined name)

/-- The value under a key of the session, empty if there is none. -/
def sessionValue (key : String) : Run String := return ((← get).session.get? key).getD ""

/-- Puts the text of a value under a key of the session. -/
def put (key : String) (v : Value) : Run Unit :=
  modify fun s => { s with session := s.session.put key v.output }

/-- A new function. -/
def newFunction (params : List Binding) (body : Body) : Run Value :=
  modifyGet fun s => (.function s.functions params body, { s with functions := s.functions + 1 })

/-- The most calls that are under way at a time. -/
def maxCallDepth : Nat := 64

/-- Runs something in a scope of its own, which ends with it, if not too many calls are under way. -/
def inScope {α : Type} (body : Run α) : Run α :=
  ExceptT.mk fun s =>
    if maxCallDepth ≤ s.depth then (.error (.fault .callsTooDeep), s)
    else
      let (outcome, s) := body.run s.enter
      (outcome, s.leave)

/-- Takes a step, and runs something in a scope of its own. -/
def inCall {α : Type} (body : Run α) : Run α := do
  tick
  inScope body

/-- Runs something, and gives its outcome also if it fails. -/
def observe {α : Type} (body : Run α) : Run (Except Failure α) :=
  ExceptT.mk fun s =>
    let (outcome, s) := body.run s
    (.ok outcome, s)

/-- Runs a body, and a handler after a failure that can be taken care of.  Before the handler, the
failure is prepared for; if that fails, nothing else is done. -/
def handled {α : Type} (body : Run α) (prepare : Cause → Run Unit) (handler : Cause → Run α) :
    Run (Except Failure α) := do
  match ← observe body with
  | .ok a    => return .ok a
  | .error f =>
    if h : f.isCatchable = true then
      prepare ⟨f, h⟩
      observe (handler ⟨f, h⟩)
    else return .error f

/-- Does something else at last, which may give a result in place of an outcome. -/
def finish {α : Type} (last : Run (Option α)) (outcome : Except Failure α) : Run α := do
  match ← last with
  | some a => return a
  | none   => liftExcept outcome

/-- Runs a body with what takes care of its failures, and in any case something else at last. -/
def attempt {α : Type} (body : Run α) (prepare : Cause → Run Unit) (handler : Cause → Run α)
    (last : Run (Option α)) : Run α := do
  finish last (← handled body prepare handler)

/-- Repeats a round until it gives a result.  Each round takes a step, so the steps that are left
bound the rounds. -/
def repeatedly {α : Type} (round : Run (Option α)) : Run α := do
  go ((← get).stepsLeft + 1)
where
  go : Nat → Run α
    | 0     => throw .stepLimit
    | n + 1 => do
      tick
      match ← round with
      | some a => return a
      | none   => go n

end Run

end Scrape.Script
