import Scrape.Text.Blank
import Scrape.Text.Find
import Scrape.Text.Integer

/-!
# Rule — Index set

Positions picked from a list.  An index set names single positions and ranges, from either end of
the list; it picks what it names in the order in which it names it, or, as an exclusion, keeps the
rest in the order of the list.  It is written in brackets (`[0,2:5,-1]`, `[!0]`) or as a tail of
indices (`.0:2`, `!0`).
-/

namespace Scrape.Rule

open Scrape.Text (trim trimEnd splitOn readInteger? isDigit cutLast? contains)

/-- An entry of an index set. -/
inductive IndexEntry where
  /-- One index, counted from the end when negative. -/
  | single (index : Int)
  /-- The indices from `first` to `last`, both included, in steps. -/
  | range (first last : Option Int) (step : Int)
  deriving DecidableEq

/-- A set of positions, to be picked or to be left out. -/
structure IndexSet where
  exclude : Bool
  entries : List IndexEntry
  deriving DecidableEq

namespace IndexSet

/-- The set of one index. -/
def one (index : Int) : IndexSet := ⟨false, [.single index]⟩

/-- Whether the set picks one index. -/
def isSingle (set : IndexSet) : Bool :=
  match set.exclude, set.entries with
  | false, [.single _] => true
  | _,     _           => false

/-! ### Positions -/

/-- An index counted from the start, in a list of a length. -/
def fromStart (index : Int) (length : Nat) : Int := if index < 0 then length + index else index

/-- The positions `start`, `start + step`, and so on up to `stop`; `fuel` bounds their number. -/
def upTo : Nat → Nat → Nat → Nat → List Nat
  | 0,        _,     _,    _    => []
  | fuel + 1, start, stop, step =>
    if stop < start then [] else start :: upTo fuel (start + step) stop step

/-- The positions `start`, `start - step`, and so on down to `stop`; `fuel` bounds their number. -/
def downTo : Nat → Nat → Nat → Nat → List Nat
  | 0,        _,     _,    _    => []
  | fuel + 1, start, stop, step =>
    if start < stop then []
    else start :: if start < step then [] else downTo fuel (start - step) stop step

/-- A bound of a range brought into the list. -/
def clamp (index : Int) (length : Nat) : Nat :=
  (max 0 (min ((length : Int) - 1) (fromStart index length))).toNat

/-- The largest step; a longer one counts as this. -/
def maxStep : Nat := 0x7FFFFFFFFFFFFFFF

/-- The positions an entry names in a list of a length; a range goes up or down as its bounds
lie. -/
def positions (length : Nat) : IndexEntry → List Nat
  | .single index =>
    let i := fromStart index length
    if 0 ≤ i ∧ i < length then [i.toNat] else []
  | .range first last step =>
    if length = 0 then []
    else
      let start := clamp (first.getD 0) length
      let stop := clamp (last.getD ((length : Int) - 1)) length
      let step := max 1 (min step.natAbs maxStep)
      if start ≤ stop then upTo length start stop step else downTo length start stop step

/-- The positions with each kept where it comes first. -/
def distinct (positions : List Nat) : List Nat :=
  positions.foldl (fun acc i => if acc.contains i then acc else acc ++ [i]) []

/-- The positions the set names in a list of a length, in the order of the entries and each
once. -/
def indices (set : IndexSet) (length : Nat) : List Nat :=
  distinct (set.entries.flatMap (positions length))

/-- The items of the list that the set picks. -/
def apply {α : Type} (set : IndexSet) (items : List α) : List α :=
  let picked := set.indices items.length
  if set.exclude then (items.zipIdx.filter fun (_, i) => !picked.contains i).map Prod.fst
  else picked.filterMap fun i => items[i]?

/-! ### Reading -/

/-- A bound of a range, which may be left out; nothing if it is no integer. -/
def bound? (part : List Char) : Option (Option Int) :=
  if part.isEmpty then some none else (readInteger? part).map some

/-- An entry of a bracketed set. -/
def entry? (part : List Char) : Option IndexEntry :=
  let part := trim part
  if part.contains ':' then
    match (splitOn [':'] part).map trim with
    | [first, last] => do
      let first ← bound? first
      let last ← bound? last
      pure (.range first last 1)
    | [first, last, step] => do
      let first ← bound? first
      let last ← bound? last
      let step ← bound? step
      pure (.range first last (step.getD 1))
    | _ => none
  else (readInteger? part).map .single

/-- The set written between brackets; nothing if what stands there is none. -/
def ofBracket? (content : List Char) : Option IndexSet :=
  let content := trim content
  let (exclude, body) := match content with
    | '!' :: rest => (true, trim rest)
    | body        => (false, body)
  if body.isEmpty then none
  else ((splitOn [','] body).mapM entry?).map fun entries => ⟨exclude, entries⟩

/-- The set of the indices in a list with colons, after a mark that is a point or, for an
exclusion, an exclamation mark. -/
def ofList? (mark : Char) (list : List Char) : Option IndexSet :=
  ((splitOn [':'] list).mapM fun part => (readInteger? (trim part)).map IndexEntry.single).map
    fun entries => ⟨mark = '!', entries⟩

/-- Whether the text is an integer, with a minus sign or without a sign. -/
def isInteger (text : List Char) : Bool :=
  let digits := match text with
    | '-' :: r => r
    | r        => r
  !digits.isEmpty && digits.all isDigit

end IndexSet

/-- The text before the last of the characters that satisfy `p`, that character, and the text
after it. -/
def lastOf? (p : Char → Bool) (s : List Char) : Option (List Char × Char × List Char) :=
  match s.reverse.span fun c => !p c with
  | (_,     [])          => none
  | (after, c :: before) => some (before.reverse, c, after.reverse)

/-- A selection step without the index set at its end, and that set if there is one. -/
def splitIndexSuffix (step : List Char) : List Char × Option IndexSet :=
  let step := trim step
  match step.getLast? with
  | some ']' =>
    match lastOf? (· = '[') step with
    | some (body, _, content) =>
      match IndexSet.ofBracket? content.dropLast with
      | some set => (trimEnd body, some set)
      | none     => (step, none)
    | none => (step, none)
  | _ =>
    match lastOf? (fun c => c = '.' || c = '!') step with
    | some (body, mark, list) =>
      if !body.isEmpty && (splitOn [':'] list).all IndexSet.isInteger then
        match IndexSet.ofList? mark list with
        | some set => (body, some set)
        | none     => (step, none)
      else (step, none)
    | none => (step, none)

end Scrape.Rule
