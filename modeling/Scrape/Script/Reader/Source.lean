import Scrape.Script.Token

/-!
# Script — Reader — Source

What is left to read of a script, and the readers that take one token at a time from it.
-/

namespace Scrape.Script

/-- What is left of a script: the token that comes next, whether a line ended before it, the text
from it on and the text after it.  The length of no text here is more than `size`. -/
structure Source where
  size : Nat
  token : Token
  newline : Bool
  text : List Char
  rest : List Char

/-- A reader of a script. -/
abbrev Read := StateT Source Option

/-- The source that starts with the first token of a text. -/
def Source.at? (size : Nat) (s : List Char) : Option Source :=
  match skipBlanks? (size + 1) false s with
  | some (newline, text) =>
    (readToken? text).map fun (token, rest) => ⟨size, token, newline, text, rest⟩
  | none => none

/-- The source that starts with the first token of a script. -/
def Source.ofText? (s : List Char) : Option Source := Source.at? s.length s

namespace Read

/-- A value, if there is one. -/
def lift {α : Type} (a? : Option α) : Read α := StateT.lift a?

/-- Goes on to the first token of a text. -/
def goTo (s : List Char) : Read Unit := do
  set (← lift (Source.at? (← get).size s))

/-- Goes on to the next token. -/
def next : Read Unit := do goTo (← get).rest

/-- The token that comes next. -/
def token : Read Token := return (← get).token

/-- What comes after the next token, if it can be read. -/
def later? : Read (Option Source) := do
  let source ← get
  return Source.at? source.size source.rest

/-- Whether a mark of punctuation comes next. -/
def sees (p : String) : Read Bool := return (← token) == .punct p

/-- Whether a word comes next. -/
def seesWord (w : String) : Read Bool := return (← token) == .name w

/-- Takes a mark of punctuation if it comes next. -/
def accepts (p : String) : Read Bool := do
  if ← sees p then next; return true
  else return false

/-- Takes a word if it comes next. -/
def acceptsWord (w : String) : Read Bool := do
  if ← seesWord w then next; return true
  else return false

/-- Takes a mark of punctuation, which has to come next. -/
def expect (p : String) : Read Unit := do
  if !(← accepts p) then failure

/-- Takes a word, which has to come next. -/
def expectWord (w : String) : Read Unit := do
  if !(← acceptsWord w) then failure

/-- Takes the end of a statement: a semicolon, or else the end of a block, of the source or of a
line. -/
def endStatement : Read Unit := do
  if ← accepts ";" then return
  let source ← get
  if !(source.newline || source.token == .punct "\x7d" || source.token == .done) then failure

/-- Repeats a step until it gives a result; `n` bounds the repetitions. -/
def repeated {σ α : Type} (step : σ → Read (σ ⊕ α)) : Nat → σ → Read α
  | 0,     _ => failure
  | n + 1, s => do
    match ← step s with
    | .inl s => repeated step n s
    | .inr a => return a

/-- Repeats a step until it gives a result.  A step takes a token, so the length of the source
bounds the repetitions. -/
def loop {σ α : Type} (step : σ → Read (σ ⊕ α)) (s : σ) : Read α := do
  repeated step ((← get).size + 2) s

/-- Reads items with commas between them up to a closing mark, and whether a comma stands before
that mark. -/
def listUntil {α : Type} (close : String) (item : Read α) : Read (List α × Bool) :=
  loop (fun ((items, comma) : List α × Bool) => do
    if ← accepts close then return .inr (items.reverse, comma)
    let a ← item
    if ← sees close then return .inl (a :: items, false)
    expect ","
    return .inl (a :: items, true)) ([], false)

/-- Reads items up to a closing mark. -/
def manyUntil {α : Type} (close : String) (item : Read α) : Read (List α) :=
  loop (fun (items : List α) => do
    if ← accepts close then return .inr items.reverse
    return .inl ((← item) :: items)) []

end Read

end Scrape.Script
