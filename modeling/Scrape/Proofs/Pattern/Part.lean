import Mathlib.Data.List.Basic
import Scrape.Pattern.Match

/-!
# Pattern — Part

What a pattern takes from a text is a part of the text: the groups of its matches, and the pieces
between them.
-/

namespace Scrape.Pattern

theorem sublist_of_mem_ofSlots {text : Array Char} {slots : Slots} {group : List Char}
    (h : some group ∈ (Match.ofSlots text slots).groups) : group.Sublist text.toList := by
  obtain ⟨i, -, hi⟩ := List.mem_map.mp h
  dsimp only at hi
  split at hi
  · obtain rfl := Option.some.inj hi
    rw [Array.toList_extract, List.extract_eq_take_drop]
    exact (List.take_sublist _ _).trans (List.drop_sublist _ _)
  · cases hi

theorem Program.exists_slots_of_matchFrom? {p : Program} {text : Array Char} {place : Nat}
    {rest : List Char} {m : Match} (h : p.matchFrom? text place rest = some m) :
    ∃ place before rest slots, p.search place before rest = some slots ∧
      m = Match.ofSlots text slots := by
  obtain ⟨slots, hslots, rfl⟩ := Option.map_eq_some_iff.mp h
  exact ⟨_, _, _, slots, hslots, rfl⟩

/-- Each match has been searched for. -/
theorem Program.exists_slots_of_mem_matchesFrom {p : Program} {text : Array Char} {m : Match}
    {fuel place : Nat} {last? : Option Nat} {rest : List Char} {found : List Match}
    (h : m ∈ p.matchesFrom text fuel place last? rest found) :
    m ∈ found ∨ ∃ place before rest slots, p.search place before rest = some slots ∧
      m = Match.ofSlots text slots := by
  fun_induction p.matchesFrom text fuel place last? rest found with
  | case1 | case2 | case3 | case4 => exact .inl (List.mem_reverse.mp h)
  | case5 _ _ _ found _ _ _ _ n hn _ ih =>
    rcases ih h with hcons | hslots
    · rcases List.mem_cons.mp hcons with rfl | hfound
      · exact .inr (exists_slots_of_matchFrom? hn)
      · exact .inl hfound
    · exact .inr hslots
  | case6 _ _ _ _ found n hn _ ih =>
    rcases ih h with hcons | hslots
    · rcases List.mem_cons.mp hcons with rfl | hfound
      · exact .inr (exists_slots_of_matchFrom? hn)
      · exact .inl hfound
    · exact .inr hslots

namespace Compiled

variable {p : Compiled} {text : List Char} {m : Match} {group : List Char}

theorem sublist_of_match? (hm : p.match? text = some m) (h : some group ∈ m.groups) :
    group.Sublist text := by
  obtain ⟨slots, -, rfl⟩ := Option.map_eq_some_iff.mp hm
  exact sublist_of_mem_ofSlots h

theorem sublist_of_mem_allMatches (hm : m ∈ p.allMatches text) (h : some group ∈ m.groups) :
    group.Sublist text := by
  rcases Program.exists_slots_of_mem_matchesFrom hm with hnil | ⟨_, _, _, slots, -, rfl⟩
  · cases hnil
  · exact sublist_of_mem_ofSlots h

theorem sublist_of_mem_split {piece : List Char} (h : piece ∈ p.split text) :
    piece.Sublist text := by
  -- the pieces so far, and the rest of the text, are parts of it
  let Parts (acc : List (List Char) × Nat × List Char) : Prop :=
    (∀ piece ∈ acc.1, piece.Sublist text) ∧ acc.2.2.Sublist text
  have hfold : ∀ (ms : List Match) (acc : List (List Char) × Nat × List Char), Parts acc →
      Parts (ms.foldl (fun acc m => (acc.2.2.take (m.start - acc.2.1) :: acc.1, m.stop,
        acc.2.2.drop (m.stop - acc.2.1))) acc) := by
    intro ms
    induction ms with
    | nil => exact fun acc hacc => hacc
    | cons m ms ih =>
      intro acc hacc
      refine ih _ ⟨List.forall_mem_cons.mpr ⟨?_, hacc.1⟩, ?_⟩
      · exact (List.take_sublist _ _).trans hacc.2
      · exact (List.drop_sublist _ _).trans hacc.2
  have hparts := hfold (p.allMatches text) ([], 0, text) ⟨List.forall_mem_nil _, .refl text⟩
  rcases List.mem_cons.mp (List.mem_reverse.mp h) with rfl | hpiece
  · exact hparts.2
  · exact hparts.1 _ hpiece

end Compiled

end Scrape.Pattern
