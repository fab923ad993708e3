import Scrape.Pattern.Basic

/-!
# Pattern — Program

A pattern as a program for a machine with many threads, and the machine.  A thread stands at an
instruction and knows where the groups matched so far begin and end.  The threads are kept in the
order in which their choices are preferred; all of them read the same character at a time, and of
two threads at one instruction the less preferred is dropped.  So a search takes a time bounded by
the product of the lengths of program and text.
-/

namespace Scrape.Pattern

/-- An instruction. -/
inductive Instr where
  /-- Reads a character of a set. -/
  | read (s : CharSet) (next : Nat)
  /-- Goes on where a condition holds. -/
  | look (l : Look) (next : Nat)
  /-- Notes the place in a slot. -/
  | save (slot : Nat) (next : Nat)
  /-- Goes on in two ways, the first preferred. -/
  | split (first second : Nat)
  /-- The end of a match. -/
  | done

/-- A program: its instructions, where it begins, and how many slots it uses. -/
structure Program where
  code : Array Instr
  start : Nat
  slots : Nat

/-- A builder of a program. -/
abbrev Build := StateM (Array Instr)

/-- Adds an instruction and gives its place. -/
def emit (i : Instr) : Build Nat := fun code => (code.size, code.push i)

/-- Replaces the instruction at a place. -/
def patch (place : Nat) (i : Instr) : Build Unit := fun code => ((), code.setIfInBounds place i)

/-- A choice between a body and going on, the body preferred if `greedy`. -/
def choice (greedy : Bool) (body next : Nat) : Instr :=
  if greedy then .split body next else .split next body

/-- A body written out a number of times; `body` builds it in front of a place. -/
def copies (body : Nat → Build Nat) : Nat → Nat → Build Nat
  | 0,     next => pure next
  | n + 1, next => do body (← copies body n next)

/-- A body written out up to a number of times, each copy only after the one before. -/
def options (greedy : Bool) (body : Nat → Build Nat) (last : Nat) : Nat → Build Nat
  | 0     => pure last
  | n + 1 => do
    let rest ← options greedy body last n
    emit (choice greedy (← body rest) last)

/-- A body that is repeated once or more. -/
def oneOrMore (greedy : Bool) (body : Nat → Build Nat) (next : Nat) : Build Nat := do
  let again ← emit .done
  let start ← body again
  patch again (choice greedy start next)
  pure start

/-- A body that is repeated any number of times.  A body that can be empty is repeated once or
more, or left out, so that the order of preference is kept. -/
def zeroOrMore (greedy : Bool) (consumes : Bool) (body : Nat → Build Nat) (next : Nat) :
    Build Nat := do
  if consumes then
    let again ← emit .done
    let start ← body again
    patch again (choice greedy start next)
    pure again
  else
    let start ← oneOrMore greedy body next
    emit (choice greedy start next)

mutual

/-- The instructions of a pattern, in front of the place `next`; gives the place where they
begin. -/
def build : Pattern → Nat → Build Nat
  | .empty,           next => pure next
  | .set s,           next => emit (.read s next)
  | .look l,          next => emit (.look l next)
  | .concat ps,       next => buildAll ps next
  | .alternatives ps, next => buildChoices ps next
  | .group i body,    next => do
    let close ← emit (.save (2 * i + 1) next)
    emit (.save (2 * i) (← build body close))
  | .repeated least most greedy body, next => do
    match most with
    | some most =>
      let rest ← options greedy (build body) next (most - least)
      copies (build body) least rest
    | none =>
      if least = 0 then zeroOrMore greedy body.consumes (build body) next
      else copies (build body) (least - 1) (← oneOrMore greedy (build body) next)

/-- The instructions of several patterns one after the other. -/
def buildAll : List Pattern → Nat → Build Nat
  | [],      next => pure next
  | p :: ps, next => do build p (← buildAll ps next)

/-- The instructions of several patterns of which one is to match. -/
def buildChoices : List Pattern → Nat → Build Nat
  | [],      next => pure next
  | [p],     next => build p next
  | p :: ps, next => do
    let rest ← buildChoices ps next
    emit (.split (← build p next) rest)

end

/-- The program of a pattern, which notes the whole match as group zero. -/
def Compiled.program (p : Compiled) : Program :=
  let ((start : Nat), code) := (do
    let last ← emit .done
    build (.group 0 p.body) last : Build Nat).run #[]
  ⟨code, start, 2 * (p.groups + 1)⟩

/-! ### The machine -/

/-- The slots of a thread: for each group its beginning and end, where known. -/
abbrev Slots := Array (Option Nat)

/-- A thread that waits to read a character of a set, or one that has come to the end. -/
structure Thread where
  set? : Option CharSet
  next : Nat
  slots : Slots

/-- Follows the threads on `todo`, the most preferred first, up to where they read or end; `seen`
marks the instructions that a thread has come to at this place.  `fuel` bounds the steps. -/
def follow (code : Array Instr) (place : Nat) (before after : Option Char) :
    Nat → List (Nat × Slots) → Array Bool → Array Thread → Array Bool × Array Thread
  | 0,        _,                   seen, threads => (seen, threads)
  | _ + 1,    [],                  seen, threads => (seen, threads)
  | fuel + 1, (pc, slots) :: todo, seen, threads =>
    if seen.getD pc true then follow code place before after fuel todo seen threads
    else
      let seen := seen.setIfInBounds pc true
      match code[pc]? with
      | none                => follow code place before after fuel todo seen threads
      | some .done          =>
        follow code place before after fuel todo seen (threads.push ⟨none, pc, slots⟩)
      | some (.read s next) =>
        follow code place before after fuel todo seen (threads.push ⟨some s, next, slots⟩)
      | some (.look l next) =>
        if l.holds before after then
          follow code place before after fuel ((next, slots) :: todo) seen threads
        else follow code place before after fuel todo seen threads
      | some (.save slot next) =>
        let slots := slots.setIfInBounds slot (some place)
        follow code place before after fuel ((next, slots) :: todo) seen threads
      | some (.split a b)   =>
        follow code place before after fuel ((a, slots) :: (b, slots) :: todo) seen threads

/-- The threads that read the character and the match that is preferred to those after it: threads
behind one that has ended are given up. -/
def advance (c : Option Char) :
    List Thread → List (Nat × Slots) → List (Nat × Slots) × Option Slots
  | [],      moved => (moved.reverse, none)
  | t :: ts, moved =>
    match t.set? with
    | none   => (moved.reverse, some t.slots)
    | some s =>
      if c.any s.has then advance c ts ((t.next, t.slots) :: moved) else advance c ts moved

/-- Runs the threads `todo` on the rest of a text, from a place after the character `before`.  As
long as there is no match, a thread is started at each place.  Gives the slots of the match. -/
def run (p : Program) (place : Nat) (before : Option Char) (todo : List (Nat × Slots))
    (found : Option Slots) (s : List Char) : Option Slots :=
  let todo := if found.isNone then todo ++ [(p.start, Array.replicate p.slots none)] else todo
  if todo.isEmpty then found
  else
    let (_, threads) := follow p.code place before s.head? (3 * p.code.size + todo.length + 2) todo
      (Array.replicate p.code.size false) #[]
    let (moved, match?) := advance s.head? threads.toList []
    let found := match?.or found
    match s with
    | []     => found
    | c :: s => run p (place + 1) (some c) moved found s

/-- The leftmost match in the rest of a text, at a place after the character `before`. -/
def Program.search (p : Program) (place : Nat) (before : Option Char) (s : List Char) :
    Option Slots :=
  run p place before [] none s

end Scrape.Pattern
