import Scrape.Proofs.Rule.Range
import Scrape.Proofs.Rule.Suffix
import Scrape.Proofs.Text.Integer

/-!
# Rule — Walk

The positions of an index set, named one by one in integers of 64 bits.  A range is walked from its
start, one step at a time, until the walk has passed its end or the next step leaves these integers;
a sum that leaves them anywhere else has no result, nor has a walk that goes on for ever
(`indices?`).

Main statement (`indices?_eq`): with integers of 64 bits no sum overflows, every walk ends within one
round more than the list has items, and what is named are the positions of the set.
-/

namespace Scrape.Rule

open Scrape.Text (IsInt64 checked? checked?_of_isInt64 checked?_of_not_isInt64
  isInt64_of_readInteger?)

/-- The integers of an entry are of 64 bits. -/
def IndexEntry.IsInt64 : IndexEntry → Prop
  | .single index          => Text.IsInt64 index
  | .range first last step =>
    (∀ i ∈ first, Text.IsInt64 i) ∧ (∀ i ∈ last, Text.IsInt64 i) ∧ Text.IsInt64 step

namespace IndexSet

/-! ### Naming positions in 64 bits -/

/-- An index counted from the start; nothing if the sum overflows. -/
def fromStart? (index length : Int) : Option Int :=
  if index < 0 then checked? (length + index) else some index

/-- The positions found, and one more if it lies in the list and is not among them. -/
def push (length : Int) (found : List Nat) (i : Int) : List Nat :=
  if 0 ≤ i ∧ i < length ∧ i.toNat ∉ found then found ++ [i.toNat] else found

/-- The walk of a range, from the position `next` on if there is one, after the positions `found`;
nothing if it has not ended after so many rounds. -/
def walk? (length start stop step : Int) : Nat → Option Int → List Nat → Option (List Nat)
  | _,          none,   found => some found
  | 0,          some _, _     => none
  | rounds + 1, some i, found =>
    if (start ≤ stop ∧ stop < i) ∨ (stop < start ∧ i < stop) then some found
    else
      let next := checked? (if start ≤ stop then i + step else i - step)
      walk? length start stop step rounds next (push length found i)

/-- The positions found, and those that an entry names; nothing if a sum overflows or a walk has not
ended after so many rounds. -/
def name? (rounds : Nat) (length : Int) (found : List Nat) : IndexEntry → Option (List Nat)
  | .single index => (fromStart? index length).map (push length found)
  | .range first last step =>
    if length = 0 then some found
    else do
      let top ← checked? (length - 1)
      let first ← first.elim (some 0) fun i => fromStart? i length
      let last ← last.elim (some top) fun i => fromStart? i length
      let start := max 0 (min top first)
      let stop := max 0 (min top last)
      walk? length start stop (max 1 (min step.natAbs maxStep) : Nat) rounds (some start) found

/-- The positions that a set names in a list of a length, in the order of the entries and each once;
nothing if a sum overflows or a walk has not ended after so many rounds. -/
def indices? (rounds : Nat) (set : IndexSet) (length : Nat) : Option (List Nat) :=
  (checked? length).bind fun length => set.entries.foldlM (name? rounds length) []

/-! ### What is read -/

theorem isInt64_of_bound? {part : List Char} {b : Option Int} (h : bound? part = some b) :
    ∀ i ∈ b, IsInt64 i := by
  rw [bound?] at h
  split at h
  · cases h
    simp
  · obtain ⟨i, hi, rfl⟩ := Option.map_eq_some_iff.mp h
    simpa using isInt64_of_readInteger? hi

theorem isInt64_of_entry? {part : List Char} {e : IndexEntry} (h : entry? part = some e) :
    e.IsInt64 := by
  rw [ entry?] at h
  split at h
  · split at h
    · obtain ⟨a, ha, b, hb, rfl⟩ := by simpa [Option.bind_eq_some_iff] using h
      exact ⟨isInt64_of_bound? ha, isInt64_of_bound? hb, by decide⟩
    · obtain ⟨a, ha, b, hb, k, hk, rfl⟩ := by simpa [Option.bind_eq_some_iff] using h
      refine ⟨isInt64_of_bound? ha, isInt64_of_bound? hb, ?_⟩
      cases k with
      | none => decide
      | some k => exact isInt64_of_bound? hk k rfl
    · cases h
  · obtain ⟨i, hi, rfl⟩ := Option.map_eq_some_iff.mp h
    exact isInt64_of_readInteger? hi

theorem isInt64_of_ofBracket? {content : List Char} {set : IndexSet}
    (h : ofBracket? content = some set) : ∀ e ∈ set.entries, e.IsInt64 := by
  rw [ofBracket?] at h
  split at h
  split at h
  · cases h
  obtain ⟨entries, hentries, rfl⟩ := Option.map_eq_some_iff.mp h
  intro e he
  obtain ⟨part, -, hpart⟩ := exists_of_mem_mapM hentries he
  exact isInt64_of_entry? hpart

theorem isInt64_of_ofList? {mark : Char} {list : List Char} {set : IndexSet}
    (h : ofList? mark list = some set) : ∀ e ∈ set.entries, e.IsInt64 := by
  obtain ⟨entries, hentries, rfl⟩ := Option.map_eq_some_iff.mp h
  intro e he
  obtain ⟨part, -, hpart⟩ := exists_of_mem_mapM hentries he
  obtain ⟨i, hi, rfl⟩ := Option.map_eq_some_iff.mp hpart
  exact isInt64_of_readInteger? hi

/-! ### Walks -/

/-- The positions found, and one more if it is not among them. -/
def keep (found : List Nat) (i : Nat) : List Nat := if found.contains i then found else found ++ [i]

theorem distinct_eq (places : List Nat) : distinct places = places.foldl keep [] := rfl

/-- The largest step is the largest integer of 64 bits. -/
theorem isInt64_iff {i : Int} : IsInt64 i ↔ -(maxStep : Int) - 1 ≤ i ∧ i ≤ maxStep := by
  unfold IsInt64 maxStep
  omega

section

variable {length start stop step rounds fuel i : Nat}

theorem walk?_none (length start stop step : Int) (found : List Nat) :
    walk? length start stop step rounds none found = some found := by
  cases rounds <;> rfl

theorem push_of_lt (hi : i < length) (found : List Nat) : push length found i = keep found i := by
  rw [push, keep]
  by_cases hmem : i ∈ found <;> simp [hmem, hi]

theorem push_of_outside {i : Int} (hi : ¬ (0 ≤ i ∧ i < length)) (found : List Nat) :
    push length found i = found :=
  if_neg fun h => hi ⟨h.1, h.2.1⟩

theorem upTo_of_lt (h : stop < start) : upTo fuel start stop step = [] := by
  cases fuel with
  | zero => rfl
  | succ fuel => exact if_pos h

theorem downTo_of_lt (h : start < stop) : downTo fuel start stop step = [] := by
  cases fuel with
  | zero => rfl
  | succ fuel => exact if_pos h

/-- A walk up ends, and names the positions that lie on it. -/
theorem walk?_up (hle : start ≤ stop) (hstop : stop < length) (hlength : length ≤ maxStep)
    (hstep : 0 < step) (hfuel : stop + 1 - i ≤ fuel) (hrounds : stop + 1 - i < rounds)
    (found : List Nat) :
    walk? length start stop step rounds (some (i : Int)) found =
      some ((upTo fuel i stop step).foldl keep found) := by
  induction rounds generalizing fuel i found with
  | zero => omega
  | succ rounds ih =>
    by_cases hpast : stop < i
    · rw [walk?, if_pos (by omega), upTo_of_lt hpast]
      rfl
    · obtain ⟨fuel, rfl⟩ : ∃ n, fuel = n + 1 := ⟨fuel - 1, by omega⟩
      rw [walk?, if_neg (by omega), if_pos (by omega), upTo, if_neg hpast, List.foldl_cons,
        push_of_lt (by omega)]
      dsimp only
      by_cases hint : IsInt64 ((i : Int) + step)
      · rw [checked?_of_isInt64 hint, ← Int.natCast_add]
        exact ih (by omega) (by omega) _
      · -- a step that leaves the integers of 64 bits has passed the end
        have hlast : stop < i + step := by
          rw [isInt64_iff] at hint
          omega
        rw [checked?_of_not_isInt64 hint, walk?_none, upTo_of_lt hlast]
        rfl

/-- A walk down ends, and names the positions that lie on it. -/
theorem walk?_down (hlt : stop < start) (hlength : length ≤ maxStep) (hi : i < length)
    (hstep : 0 < step) (hmax : step ≤ maxStep) (hfuel : i + 1 - stop ≤ fuel)
    (hrounds : i + 1 - stop < rounds) (found : List Nat) :
    walk? length start stop step rounds (some (i : Int)) found =
      some ((downTo fuel i stop step).foldl keep found) := by
  induction rounds generalizing fuel i found with
  | zero => omega
  | succ rounds ih =>
    by_cases hpast : i < stop
    · rw [walk?, if_pos (by omega), downTo_of_lt hpast]
      rfl
    · obtain ⟨fuel, rfl⟩ : ∃ n, fuel = n + 1 := ⟨fuel - 1, by omega⟩
      have hint : IsInt64 ((i : Int) - step) := isInt64_iff.mpr (by omega)
      rw [walk?, if_neg (by omega), if_neg (by omega), downTo, if_neg hpast, List.foldl_cons,
        push_of_lt hi]
      dsimp only
      rw [checked?_of_isInt64 hint]
      split
      · next hbelow =>
        -- the walk steps below the list, and ends in the next round
        obtain ⟨rounds, rfl⟩ : ∃ n, rounds = n + 1 := ⟨rounds - 1, by omega⟩
        rw [walk?, if_pos (by omega)]
        rfl
      · next hle =>
        rw [show (i : Int) - step = ((i - step : Nat) : Int) by omega]
        exact ih (by omega) (by omega) (by omega) _

end

/-! ### The positions of a set -/

variable {length rounds : Nat}

theorem fromStart?_eq {index : Int} (hindex : IsInt64 index) (hlength : length ≤ maxStep) :
    fromStart? index length = some (fromStart index length) := by
  rw [fromStart?, fromStart]
  split
  · rw [isInt64_iff] at hindex
    exact checked?_of_isInt64 (isInt64_iff.mpr (by omega))
  · rfl

/-- An entry names its positions. -/
theorem name?_eq {e : IndexEntry} (he : e.IsInt64) (hlength : length ≤ maxStep)
    (hrounds : length < rounds) (found : List Nat) :
    name? rounds length found e = some ((positions length e).foldl keep found) := by
  cases e with
  | single index =>
    rw [name?, fromStart?_eq he hlength, Option.map_some, positions]
    split
    · next hinside =>
      have hlt : (fromStart index length).toNat < length := by omega
      rw [List.foldl_cons, List.foldl_nil, ← push_of_lt hlt, Int.toNat_of_nonneg hinside.1]
    · next houtside => rw [push_of_outside houtside, List.foldl_nil]
  | range first last step =>
    obtain ⟨hfirst, hlast, -⟩ := he
    rcases Nat.eq_zero_or_pos length with rfl | hpos
    · rfl
    have htop : checked? ((length : Int) - 1) = some ((length : Int) - 1) :=
      checked?_of_isInt64 (isInt64_iff.mpr (by omega))
    have hstart : first.elim (some 0) (fun i => fromStart? i length) =
        some (fromStart (first.getD 0) length) := by
      cases first with
      | none => rfl
      | some i => exact fromStart?_eq (hfirst i rfl) hlength
    have hstop : last.elim (some ((length : Int) - 1)) (fun i => fromStart? i length) =
        some (fromStart (last.getD ((length : Int) - 1)) length) := by
      cases last with
      | none => exact congrArg some (if_neg (by rw [Option.getD_none]; omega)).symm
      | some i => exact fromStart?_eq (hlast i rfl) hlength
    have hclamp (b : Int) :
        max 0 (min ((length : Int) - 1) (fromStart b length)) = (clamp b length : Nat) := by
      rw [clamp]
      omega
    have hinside (b : Int) : clamp b length < length := by
      rw [clamp]
      omega
    rw [name?, if_neg (by omega), htop, Option.bind_eq_bind, Option.bind_some, hstart,
      Option.bind_some, hstop, Option.bind_some, hclamp, hclamp, positions, if_neg hpos.ne']
    dsimp only
    have hstart := hinside (first.getD 0)
    have hstop := hinside (last.getD ((length : Int) - 1))
    generalize clamp (first.getD 0) length = start at *
    generalize clamp (last.getD ((length : Int) - 1)) length = stop at *
    have hstep : 0 < max 1 (min step.natAbs maxStep) := by omega
    have hmax : max 1 (min step.natAbs maxStep) ≤ maxStep := by
      have : 1 ≤ maxStep := by decide
      omega
    split
    · next hle => exact walk?_up hle hstop hlength hstep (by omega) (by omega) found
    · next hgt =>
      exact walk?_down (by omega) hlength hstart hstep hmax (by omega) (by omega) found

/-- **Naming positions in 64 bits** ends without overflow, and gives the positions of the set. -/
theorem indices?_eq {set : IndexSet} (hset : ∀ e ∈ set.entries, e.IsInt64)
    (hlength : length ≤ maxStep) (hrounds : length < rounds) :
    set.indices? rounds length = some (set.indices length) := by
  have hentries (entries : List IndexEntry) (he : ∀ e ∈ entries, e.IsInt64) (found : List Nat) :
      entries.foldlM (name? rounds (length : Int)) found =
        some ((entries.flatMap (positions length)).foldl keep found) := by
    induction entries generalizing found with
    | nil => rfl
    | cons e entries ih =>
      rw [List.forall_mem_cons] at he
      rw [List.foldlM_cons, name?_eq he.1 hlength hrounds, Option.bind_eq_bind, Option.bind_some,
        ih he.2, List.flatMap_cons, List.foldl_append]
  have hint : IsInt64 (length : Int) := isInt64_iff.mpr (by omega)
  rw [indices?, checked?_of_isInt64 hint, Option.bind_some, hentries set.entries hset, indices,
    distinct_eq]

end IndexSet

end Scrape.Rule
