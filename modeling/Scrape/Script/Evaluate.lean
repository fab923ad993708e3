import Scrape.Script.Interp
import Scrape.Script.Parse

/-!
# Script — Evaluate

Running a script on a value.  What a script gives is what it returns, or else the value of the
expression it ends with, or else what its variable `result` holds at the end.
-/

namespace Scrape.Script

open Run

/-- Why a script gives no value. -/
inductive EvalError where
  | parse (e : ParseError)
  | run (f : Failure)
  deriving DecidableEq

/-- Whether an expression assigns. -/
def Expr.isAssignment : Expr → Bool
  | .assign .. => true
  | _          => false

namespace Interp

variable (self : Interp)

/-- The value of the variable `result`. -/
def resultValue : Run Value := return (← lookup? "result").getD .undefined

/-- Executes the statements of a script up to one that gives a value. -/
def runStmts : List Stmt → Run Value
  | []              => resultValue
  | [.expr e]       => do
    if e.isAssignment then
      let _ ← self.exec (.expr e)
      resultValue
    else
      tick
      self.eval e
  | s :: r          => do
    match ← self.exec s with
    | .give v => return v
    | _       => runStmts r

/-- Runs the statements of a script. -/
def run (body : List Stmt) : Run Value := do
  hoist body
  self.runStmts body

end Interp

/-- How deep the parts of a script of some length can nest while it runs.  Each call nests no deeper
than the text of the script. -/
def maxDepth (length : Nat) : Nat := (maxCallDepth + 2) * (4 * length + 64)

/-- The state in which a run begins. -/
def State.initial (result : Value) (baseUrl? : Option String) (session : Session) (limit : Nat) :
    State :=
  ⟨session, [[("result", result), ("baseUrl", baseUrl?.elim .undefined .string)]], 0, limit, 0, 0⟩

/-- Runs a script on a value with an effect of putting, and gives its outcome and the state
afterwards. -/
def runWith (put : String → Value → Run Unit) (source : List Char) (result : Value)
    (baseUrl? : Option String) (session : Session) (limit : Nat) :
    Except EvalError Value × State :=
  let start := State.initial result baseUrl? session limit
  match parse source with
  | .error e => (.error (.parse e), start)
  | .ok body =>
    let machine := interp put (maxDepth source.length)
    let (outcome, state) := (machine.run body).run start
    (outcome.mapError .run, state)

/-- Runs a script on a value, and gives its outcome and the session afterwards. -/
def run (source : List Char) (result : Value) (baseUrl? : Option String) (session : Session)
    (limit : Nat) : Except EvalError Value × Session :=
  let (outcome, state) := runWith put source result baseUrl? session limit
  (outcome, state.session)

/-- The message of a failure, for a run with a limit of steps. -/
def EvalError.message? (limit : Nat) : EvalError → Option String
  | .parse .nested    => some "script parse error: brackets nested deeper than 32"
  | .parse .escapes   => some "script parse error: script escapes its body"
  | .parse .malformed => none
  | .run (.fault f)   => some ("script error: " ++ f.message)
  | .run .stepLimit   =>
    some ("script exceeded step limit of " ++ String.ofList (Text.decimal limit))
  | .run _            => none

end Scrape.Script
