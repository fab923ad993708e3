import Mathlib.Data.List.Basic
import Scrape.Proofs.Pattern.Part

/-!
# Pattern — Groups

A match of a pattern has one text for each group of the pattern and one for the whole match, none
where a group took no part: the slots of a thread stay as many as it has been started with.

Main statements (`length_groups_of_match?`, `length_groups_of_mem_allMatches`).
-/

namespace Scrape.Pattern

section

variable {n place : Nat} {before after : Option Char} {todo moved : List (Nat × Slots)}

theorem forall_mem_push {threads : Array Thread} {set? : Option CharSet} {next : Nat}
    {slots : Slots} (hthreads : ∀ t ∈ threads, t.slots.size = n) (hslots : slots.size = n) :
    ∀ t ∈ threads.push ⟨set?, next, slots⟩, t.slots.size = n := by
  intro t ht
  rcases Array.mem_push.mp ht with hmem | rfl
  · exact hthreads t hmem
  · exact hslots

/-- Threads that are followed keep the number of their slots. -/
theorem size_of_mem_follow {code : Array Instr} {fuel : Nat} {seen : Array Bool}
    {threads : Array Thread} (htodo : ∀ t ∈ todo, t.2.size = n)
    (hthreads : ∀ t ∈ threads, t.slots.size = n) :
    ∀ t ∈ (follow code place before after fuel todo seen threads).2, t.slots.size = n := by
  fun_induction follow code place before after fuel todo seen threads with
  | case1 | case2 => exact hthreads
  | case3 fuel pc slots todo seen threads hseen ih =>
    exact ih (List.forall_mem_cons.mp htodo).2 hthreads
  | case4 fuel pc slots todo seen threads hseen seen' hcode ih =>
    exact ih (List.forall_mem_cons.mp htodo).2 hthreads
  | case5 fuel pc slots todo seen threads hseen seen' hcode ih =>
    obtain ⟨hslots, htodo⟩ := List.forall_mem_cons.mp htodo
    exact ih htodo (forall_mem_push hthreads hslots)
  | case6 fuel pc slots todo seen threads hseen seen' set next hcode ih =>
    obtain ⟨hslots, htodo⟩ := List.forall_mem_cons.mp htodo
    exact ih htodo (forall_mem_push hthreads hslots)
  | case7 fuel pc slots todo seen threads hseen seen' l next hcode hholds ih =>
    exact ih (List.forall_mem_cons.mpr (List.forall_mem_cons.mp htodo)) hthreads
  | case8 fuel pc slots todo seen threads hseen seen' l next hcode hholds ih =>
    exact ih (List.forall_mem_cons.mp htodo).2 hthreads
  | case9 fuel pc slots todo seen threads hseen seen' slot next hcode saved ih =>
    obtain ⟨hslots, htodo⟩ := List.forall_mem_cons.mp htodo
    exact ih (List.forall_mem_cons.mpr ⟨Array.size_setIfInBounds.trans hslots, htodo⟩) hthreads
  | case10 fuel pc slots todo seen threads hseen seen' a b hcode ih =>
    obtain ⟨hslots, htodo⟩ := List.forall_mem_cons.mp htodo
    exact ih (List.forall_mem_cons.mpr ⟨hslots, List.forall_mem_cons.mpr ⟨hslots, htodo⟩⟩) hthreads

/-- Threads that read a character, or end, keep the number of their slots. -/
theorem size_of_advance {c : Option Char} {threads : List Thread}
    (hthreads : ∀ t ∈ threads, t.slots.size = n) (hmoved : ∀ t ∈ moved, t.2.size = n) :
    (∀ t ∈ (advance c threads moved).1, t.2.size = n) ∧
      ∀ slots ∈ (advance c threads moved).2, slots.size = n := by
  fun_induction advance c threads moved with
  | case1 =>
    exact ⟨fun t ht => hmoved t (List.mem_reverse.mp ht),
      fun slots h => absurd h (Option.not_mem_none slots)⟩
  | case2 moved t threads hset =>
    refine ⟨fun u hu => hmoved u (List.mem_reverse.mp hu), fun slots hslots => ?_⟩
    obtain rfl := Option.mem_some.mp hslots
    exact (List.forall_mem_cons.mp hthreads).1
  | case3 moved t threads set hset hread ih =>
    obtain ⟨ht, hthreads⟩ := List.forall_mem_cons.mp hthreads
    exact ih hthreads (List.forall_mem_cons.mpr ⟨ht, hmoved⟩)
  | case4 moved t threads set hset hread ih =>
    exact ih (List.forall_mem_cons.mp hthreads).2 hmoved

/-- Threads that go past one character keep the number of their slots. -/
theorem size_of_step {code : Array Instr} {fuel : Nat} {seen seen' : Array Bool}
    {threads : Array Thread} {c : Option Char} {found match? : Option Slots}
    (hfollow : follow code place before after fuel todo seen #[] = (seen', threads))
    (hadvance : advance c threads.toList [] = (moved, match?))
    (htodo : ∀ t ∈ todo, t.2.size = n) (hfound : ∀ slots ∈ found, slots.size = n) :
    (∀ t ∈ moved, t.2.size = n) ∧ ∀ slots ∈ match?.or found, slots.size = n := by
  have hthreads : ∀ t ∈ threads, t.slots.size = n := by
    have h : ∀ t ∈ (follow code place before after fuel todo seen #[]).2, t.slots.size = n :=
      size_of_mem_follow htodo (by simp)
    rwa [hfollow] at h
  have h : (∀ t ∈ (advance c threads.toList []).1, t.2.size = n) ∧
      ∀ slots ∈ (advance c threads.toList []).2, slots.size = n :=
    size_of_advance (fun t ht => hthreads t (Array.mem_toList_iff.mp ht)) (List.forall_mem_nil _)
  rw [hadvance] at h
  refine ⟨h.1, fun slots hslots => ?_⟩
  rcases Option.or_eq_some_iff.mp hslots with hmatch | ⟨-, hfirst⟩
  · exact h.2 slots hmatch
  · exact hfound slots hfirst

theorem size_of_mem_run {p : Program} {found : Option Slots} {s : List Char}
    (htodo : ∀ t ∈ todo, t.2.size = p.slots) (hfound : ∀ slots ∈ found, slots.size = p.slots) :
    ∀ slots ∈ run p place before todo found s, slots.size = p.slots := by
  have hstarted {todo : List (Nat × Slots)} {found : Option Slots}
      (htodo : ∀ t ∈ todo, t.2.size = p.slots) :
      ∀ t ∈ (if found.isNone then todo ++ [(p.start, Array.replicate p.slots none)] else todo),
        t.2.size = p.slots := by
    split
    · exact List.forall_mem_append.mpr
        ⟨htodo, List.forall_mem_singleton.mpr Array.size_replicate⟩
    · exact htodo
  fun_induction run p place before todo found s with
  | case1 => exact hfound
  | case2 place before todo found _ _ _ _ _ _ _ hfollow hadvance =>
    exact (size_of_step hfollow hadvance (hstarted htodo) hfound).2
  | case3 place before todo found _ _ _ _ _ _ _ _ _ hfollow hadvance ih =>
    have hstep := size_of_step hfollow hadvance (hstarted htodo) hfound
    exact ih hstep.1 hstep.2

/-- The slots of a match are as many as the program uses. -/
theorem Program.size_of_search {p : Program} {s : List Char} {slots : Slots}
    (h : p.search place before s = some slots) : slots.size = p.slots :=
  size_of_mem_run (List.forall_mem_nil _) (fun slots h => absurd h (Option.not_mem_none slots))
    slots h

end

/-! ### Matches -/

theorem length_groups_ofSlots {n : Nat} {text : Array Char} {slots : Slots}
    (h : slots.size = 2 * n) : (Match.ofSlots text slots).groups.length = n := by
  simp [Match.ofSlots, h]

namespace Compiled

variable {p : Compiled} {text : List Char} {m : Match}

theorem length_groups_of_match? (h : p.match? text = some m) : m.groups.length = p.groups + 1 := by
  obtain ⟨_, _, _, slots, hslots, rfl⟩ := Program.exists_slots_of_matchFrom? h
  exact length_groups_ofSlots (Program.size_of_search hslots)

theorem length_groups_of_mem_allMatches (h : m ∈ p.allMatches text) :
    m.groups.length = p.groups + 1 := by
  rcases Program.exists_slots_of_mem_matchesFrom h with hnil | ⟨_, _, _, slots, hslots, rfl⟩
  · cases hnil
  · exact length_groups_ofSlots (Program.size_of_search hslots)

end Compiled
end Scrape.Pattern
