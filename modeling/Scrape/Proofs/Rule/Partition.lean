import Mathlib.Data.List.Perm.Basic
import Scrape.Proofs.Rule.Walk

/-!
# Rule — Partition

What an index set picks from a list and what it leaves out.  The positions that a set names lie in
the list (`lt_of_mem_indices`) and are named once (`nodup_indices`).  The set picks the items at these
positions in the order in which it names them (`map_some_apply_inclusion`), and the exclusion with the
same entries keeps the items at all others in the order of the list (`map_some_apply_exclusion`).

Main statement (`inclusion_exclusion`): the positions are named in integers of 64 bits without
overflow, and the two results together are the list in another order.
-/

namespace Scrape.Rule.IndexSet

/-! ### The positions that are named -/

section

variable {length i : Nat}

theorem lt_of_mem_positions {e : IndexEntry} (hi : i ∈ positions length e) : i < length := by
  cases e with
  | single index =>
    rw [positions] at hi
    split at hi
    · next hinside =>
      rw [List.mem_singleton.mp hi]
      omega
    · cases hi
  | range first last step =>
    rw [positions] at hi
    split at hi
    · cases hi
    · next hpos =>
      have hinside (b : Int) : clamp b length < length := by
        rw [clamp]
        omega
      have hstart := hinside (first.getD 0)
      have hstop := hinside (last.getD ((length : Int) - 1))
      dsimp only at hi
      split at hi
      · have := (mem_upTo_iff (by omega) (by omega)).mp hi
        omega
      · have := (mem_downTo_iff (by omega) (by omega)).mp hi
        omega

theorem mem_foldl_keep_iff {places found : List Nat} :
    i ∈ places.foldl keep found ↔ i ∈ found ∨ i ∈ places := by
  induction places generalizing found with
  | nil => simp
  | cons j places ih =>
    have hkeep : i ∈ keep found j ↔ i ∈ found ∨ i = j := by
      by_cases hj : j ∈ found
      · have : i = j → i ∈ found := fun h => h ▸ hj
        simpa [keep, hj] using this
      · simp [keep, hj]
    rw [List.foldl_cons, ih, hkeep, List.mem_cons, or_assoc]

theorem nodup_foldl_keep {places found : List Nat} (h : found.Nodup) :
    (places.foldl keep found).Nodup := by
  induction places generalizing found with
  | nil => exact h
  | cons j places ih =>
    rw [List.foldl_cons]
    refine ih ?_
    rw [keep]
    split
    · exact h
    · next hj =>
      have hne : ∀ a ∈ found, a ≠ j := fun a ha haj => hj (by simpa [haj] using ha)
      exact List.nodup_append.mpr ⟨h, List.nodup_singleton j, by simpa using hne⟩

/-- **The positions of a set** are those that its entries name. -/
theorem mem_indices_iff {set : IndexSet} :
    i ∈ set.indices length ↔ ∃ e ∈ set.entries, i ∈ positions length e := by
  rw [indices, distinct_eq, mem_foldl_keep_iff, List.mem_flatMap]
  exact or_iff_right List.not_mem_nil

theorem lt_of_mem_indices {set : IndexSet} (hi : i ∈ set.indices length) : i < length := by
  obtain ⟨e, -, he⟩ := mem_indices_iff.mp hi
  exact lt_of_mem_positions he

theorem nodup_indices (set : IndexSet) (length : Nat) : (set.indices length).Nodup :=
  nodup_foldl_keep List.nodup_nil

end

/-! ### What is picked and what is kept -/

variable {α : Type}

/-- The set that picks what the entries name. -/
def including (set : IndexSet) : IndexSet := { set with exclude := false }

/-- The set that leaves out what the entries name. -/
def excluding (set : IndexSet) : IndexSet := { set with exclude := true }

/-- The positions in a list of a length that a set does not name, in the order of the list. -/
def unnamed (set : IndexSet) (length : Nat) : List Nat :=
  (List.range length).filter fun i => !(set.indices length).contains i

/-- An inclusion picks the items at the positions of the set, in the order in which it names them. -/
theorem map_some_apply_inclusion (set : IndexSet) (items : List α) :
    (set.including.apply items).map some = (set.indices items.length).map fun i => items[i]? := by
  have happly : set.including.apply items =
      (set.indices items.length).filterMap fun i => items[i]? := rfl
  have hitem : ∀ i ∈ set.indices items.length,
      (items[i]?).map some = (some ∘ fun i => items[i]?) i := fun i hi => by
    rw [Function.comp_apply, List.getElem?_eq_getElem (lt_of_mem_indices hi), Option.map_some]
  rw [happly, List.map_filterMap, List.filterMap_congr hitem, List.filterMap_eq_map]

/-- An exclusion keeps the items at all other positions, in the order of the list. -/
theorem map_some_apply_exclusion (set : IndexSet) (items : List α) :
    (set.excluding.apply items).map some = (set.unnamed items.length).map fun i => items[i]? := by
  let isUnnamed (i : Nat) : Bool := !(set.indices items.length).contains i
  have happly : set.excluding.apply items =
      (items.zipIdx.filter (isUnnamed ∘ Prod.snd)).map Prod.fst := rfl
  have hitem : ∀ p ∈ items.zipIdx.filter (isUnnamed ∘ Prod.snd), some p.1 = items[p.2]? :=
    fun p hp => (List.mem_zipIdx_iff_getElem?.mp (List.mem_of_mem_filter hp)).symm
  have hrange : items.zipIdx.map Prod.snd = List.range items.length := by
    rw [List.zipIdx_map_snd, List.range_eq_range']
  calc (set.excluding.apply items).map some
      = (items.zipIdx.filter (isUnnamed ∘ Prod.snd)).map fun p => items[p.2]? := by
        rw [happly, List.map_map]
        exact List.map_congr_left hitem
    _ = ((items.zipIdx.map Prod.snd).filter isUnnamed).map fun i => items[i]? := by
        rw [List.filter_map, List.map_map]
        rfl
    _ = (set.unnamed items.length).map fun i => items[i]? := by rw [hrange, unnamed]

/-- The positions that are named, and those that are not, are all positions of the list. -/
theorem indices_append_unnamed_perm (set : IndexSet) (length : Nat) :
    (set.indices length ++ set.unnamed length).Perm (List.range length) := by
  have hnamed : (set.indices length).Perm
      ((List.range length).filter (set.indices length).contains) := by
    refine (List.perm_ext_iff_of_nodup (nodup_indices set length)
      (List.nodup_range.filter _)).mpr fun i => ?_
    have hlt : i ∈ set.indices length → i < length := lt_of_mem_indices
    simpa using hlt
  exact (hnamed.append_right _).trans (List.filter_append_perm _ _)

/-- What is picked and what is kept are the list in another order. -/
theorem apply_inclusion_append_exclusion_perm (set : IndexSet) (items : List α) :
    (set.including.apply items ++ set.excluding.apply items).Perm items := by
  have hall : (List.range items.length).map (fun i => items[i]?) = items.map some := by
    refine List.ext_getElem? fun i => ?_
    by_cases hi : i < items.length <;> simp [hi]
  refine (List.map_perm_map_iff (Option.some_injective α)).mp ?_
  rw [List.map_append, map_some_apply_inclusion, map_some_apply_exclusion, ← List.map_append, ← hall]
  exact (indices_append_unnamed_perm set items.length).map _

/-- **Inclusion and exclusion part a list.**  For a set that is read from a text, the positions it
names in a list are found in integers of 64 bits, in finitely many rounds and without overflow; they
lie in the list, and each is named once.  The inclusion picks the items at these positions, in the
order in which they are named; the exclusion with the same entries keeps the items at the others, in
the order of the list; and the two together are the list in another order. -/
theorem inclusion_exclusion {set : IndexSet}
    (hset : (∃ content, ofBracket? content = some set) ∨ ∃ mark list, ofList? mark list = some set)
    (items : List α) :
    (items.length ≤ maxStep → ∀ rounds, items.length < rounds →
      set.indices? rounds items.length = some (set.indices items.length)) ∧
    (∀ i ∈ set.indices items.length, i < items.length) ∧
    (set.indices items.length).Nodup ∧
    (set.including.apply items).map some = (set.indices items.length).map (fun i => items[i]?) ∧
    (set.excluding.apply items).map some = (set.unnamed items.length).map (fun i => items[i]?) ∧
    (set.including.apply items ++ set.excluding.apply items).Perm items := by
  have hint : ∀ e ∈ set.entries, e.IsInt64 := by
    rcases hset with ⟨content, h⟩ | ⟨mark, list, h⟩
    · exact isInt64_of_ofBracket? h
    · exact isInt64_of_ofList? h
  exact ⟨fun hlength rounds hrounds => indices?_eq hint hlength hrounds,
    fun i hi => lt_of_mem_indices hi, nodup_indices set items.length,
    map_some_apply_inclusion set items, map_some_apply_exclusion set items,
    apply_inclusion_append_exclusion_perm set items⟩

/-- An exclusion with a step and an index at the ends of the integers of 64 bits. -/
def extremeSet : IndexSet :=
  ⟨true, [.single (-1), .range (some 3) (some 0) (-0x8000000000000000),
    .single 0x7FFFFFFFFFFFFFFF]⟩

/-- The extreme set names the last and the fourth of five letters, and nothing overflows. -/
theorem inclusion_exclusion_extremeSet :
    ofBracket? "!-1,3:0:-9223372036854775808,9223372036854775807".toList = some extremeSet ∧
    extremeSet.indices? 6 5 = some [4, 3] ∧
    extremeSet.including.apply "abcde".toList = "ed".toList ∧
    extremeSet.excluding.apply "abcde".toList = "abc".toList ∧
    (extremeSet.including.apply "abcde".toList ++ extremeSet.excluding.apply "abcde".toList).Perm
      "abcde".toList := by
  have hread :
      ofBracket? "!-1,3:0:-9223372036854775808,9223372036854775807".toList = some extremeSet := by
    decide +kernel
  obtain ⟨hindices, -, -, -, -, hperm⟩ :=
    inclusion_exclusion (.inl ⟨_, hread⟩) "abcde".toList
  exact ⟨hread, (hindices (by decide) 6 (by decide)).trans (by decide), by decide, by decide, hperm⟩

end Scrape.Rule.IndexSet
