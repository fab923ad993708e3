/-!
# Script — Failure

Why the run of a script fails, and the messages of what a script can do wrong.
-/

namespace Scrape.Script

/-- A form of scripts that no run supports. -/
inductive Form where
  | statement
  | expression
  | literal
  | operator
  | call
  | constructor
  | memberAccess
  | propertyName
  | objectProperty
  | assignmentTarget
  | bindingPattern
  | objectRestPattern
  deriving DecidableEq

/-- The words for a form. -/
def Form.text : Form → String
  | .statement         => "statement"
  | .expression        => "expression"
  | .literal           => "literal"
  | .operator          => "operator"
  | .call              => "call"
  | .constructor       => "constructor"
  | .memberAccess      => "member access"
  | .propertyName      => "property name"
  | .objectProperty    => "object property"
  | .assignmentTarget  => "assignment target"
  | .bindingPattern    => "binding pattern"
  | .objectRestPattern => "object rest pattern"

/-- What a script does wrong. -/
inductive Fault where
  /-- It throws a value, of which this is the text. -/
  | thrown (text : String)
  | unsupported (form : Form)
  | notDefined (name : String)
  /-- It calls what is no function: a value of some kind, or a name. -/
  | notFunction (what : String)
  /-- It goes through a value of some kind, which is no list. -/
  | notIterable (kind : String)
  /-- It reads a property of null or undefined. -/
  | unreadable (key value : String)
  /-- It sets a property of a value of some kind, which cannot have it. -/
  | unsettable (key kind : String)
  | noMethod (kind name : String)
  | uncallable (name value : String)
  | invalidTarget
  | callsTooDeep
  | callbackMissing
  | emptyReduce
  | inNeedsObject
  | malformedUri
  | stringTooLong
  | arrayLength
  | stringLength
  | repetitions
  deriving DecidableEq

/-- The message of a fault. -/
def Fault.message : Fault → String
  | .thrown text           => text
  | .unsupported form      => "unsupported " ++ form.text
  | .notDefined name       => name ++ " is not defined"
  | .notFunction what      => what ++ " is not a function"
  | .notIterable kind      => kind ++ " is not iterable"
  | .unreadable key value  => "cannot read property '" ++ key ++ "' of " ++ value
  | .unsettable key kind   => "cannot set property '" ++ key ++ "' of " ++ kind
  | .noMethod kind name    => kind ++ " has no method " ++ name
  | .uncallable name value => "cannot call " ++ name ++ " on " ++ value
  | .invalidTarget         => "invalid assignment target"
  | .callsTooDeep          => "maximum call depth exceeded"
  | .callbackMissing       => "callback is not a function"
  | .emptyReduce           => "reduce of empty array with no initial value"
  | .inNeedsObject         => "'in' needs an object"
  | .malformedUri          => "URIError: malformed URI sequence"
  | .stringTooLong         => "RangeError: string too long"
  | .arrayLength           => "RangeError: invalid array length"
  | .stringLength          => "RangeError: invalid string length"
  | .repetitions           => "RangeError: invalid count value"

/-- Why a run fails. -/
inductive Failure where
  | fault (f : Fault)
  /-- A text that is no JSON. -/
  | json
  /-- A text that is no regular expression. -/
  | pattern (source : String)
  /-- The run takes more steps than it may. -/
  | stepLimit
  /-- The run nests deeper than its script can. -/
  | exhausted
  deriving DecidableEq

/-- Whether a script can take care of the failure. -/
def Failure.isCatchable : Failure → Bool
  | .stepLimit => false
  | .exhausted => false
  | _          => true

/-- A failure that a script can take care of. -/
abbrev Cause := { f : Failure // f.isCatchable = true }

/-- The message that a script gets which takes care of the failure. -/
def Failure.message : Failure → String
  | .fault f        => f.message
  | .json           => "invalid JSON: malformed text"
  | .pattern source => "invalid regex \x60" ++ source ++ "\x60: malformed pattern"
  | .stepLimit      => "script exceeded its steps"
  | .exhausted      => "script exceeded its nesting"

end Scrape.Script
