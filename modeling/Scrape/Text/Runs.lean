import Scrape.Text.Integer

/-!
# Text — Runs

Tables over the characters, kept as runs: each entry says from which code point on a value holds.
The tables are written as texts, in which each run is a name and a length, or, for a table of yes
and no, a length alone; the runs follow one another from zero on.
-/

namespace Scrape.Text

/-- A table that gives a value to each code point: the code points where a run starts, in rising
order, with the value of the run. -/
structure Runs (α : Type) where
  entries : Array (Nat × α)

namespace Runs

variable {α : Type}

/-- The index of the last entry that starts at `n` or before, between `low` and `high`; `fuel`
bounds the number of halvings. -/
def search (entries : Array (Nat × α)) (n : Nat) : Nat → Nat → Nat → Nat
  | 0,        low, _    => low
  | fuel + 1, low, high =>
    if high ≤ low + 1 then low
    else
      let middle := (low + high) / 2
      match entries[middle]? with
      | some (start, _) =>
        if start ≤ n then search entries n fuel middle high else search entries n fuel low middle
      | none => low

/-- The value of the table at a code point. -/
def at? (runs : Runs α) (n : Nat) : Option α :=
  (runs.entries[search runs.entries n 24 0 runs.entries.size]?).map Prod.snd

/-- The entries of runs given by their lengths. -/
def ofLengths (lengths : List (α × Nat)) : Runs α :=
  ⟨(lengths.foldl (fun (acc, start) (value, length) => (acc.push (start, value), start + length))
    (#[], 0)).1⟩

/-- The value of a run of decimal digits. -/
def readLength (digits : List Char) : Nat := (digitsValue? 10 0 digits).getD 0

/-- The runs of a text of names with lengths. -/
def ofNames (lines : List String) : Runs String :=
  let tokens := lines.flatMap fun line => (line.splitOn " ").filter fun t => !t.isEmpty
  ofLengths (tokens.map fun t =>
    let (name, digits) := t.toList.span fun c => !isDigit c
    (String.ofList name, readLength digits))

/-- The runs of a text of lengths, which hold in turns of no and yes. -/
def ofFlags (lines : List String) : Runs Bool :=
  let tokens := lines.flatMap fun line => (line.splitOn " ").filter fun t => !t.isEmpty
  ofLengths (tokens.zipIdx.map fun (t, i) => (i % 2 = 1, readLength t.toList))

end Runs
end Scrape.Text
