import Scrape.Proofs.Text.Find
import Scrape.Rule.Split

/-!
# Rule — Cut

How a rule is cut at its separators.  A piece is a text within which no separator begins at the top
level (`Whole`), and it ends where the scan stands as at the start of a rule, so that what follows
the separator is scanned like a rule of its own.  The cuts are given as a grammar (`Cutting`).

Main statement (`cuts_eq_iff`): the cuts of a rule are those of the grammar.
-/

namespace Scrape.Rule

open Scrape.Text (after?_append after?_eq_some_iff isBlank startsWith)

/-! ### Scans -/

namespace Scan

/-- The scan after a text. -/
def run (st : Scan) (s : List Char) : Scan := s.foldl step st

@[simp] theorem run_nil (st : Scan) : st.run [] = st := rfl

@[simp] theorem run_cons (st : Scan) (c : Char) (s : List Char) :
    st.run (c :: s) = (st.step c).run s := rfl

theorem run_append (st : Scan) (s t : List Char) : st.run (s ++ t) = (st.run s).run t :=
  List.foldl_append

/-- A separator starts only where the scan stands as at the start of a rule. -/
theorem eq_start_of_separates {st : Scan} {c : Char} (h : st.separates c = true) : st = {} := by
  obtain ⟨quote, depth, escaped⟩ := st
  simp [separates] at h
  simp [h]

/-- What is neither a quote nor a bracket nor a backslash leaves the scan at the start. -/
theorem start_step_of_separates {c : Char} (h : ({} : Scan).separates c = true) :
    ({} : Scan).step c = {} := by
  simp [separates] at h
  simp [step, h]

/-- A blank may start a separator. -/
theorem separates_of_isBlank {c : Char} (h : isBlank c = true) : ({} : Scan).separates c = true := by
  have hmarks : ∀ m ∈ ['\\', '"', '\'', '(', '[', '\x7b', ')', ']', '\x7d'], isBlank m = false := by
    simp [isBlank]
  have hc : c ∉ ['\\', '"', '\'', '(', '[', '\x7b', ')', ']', '\x7d'] := by
    intro hmem
    rw [hmarks c hmem] at h
    cases h
  simpa [separates] using hc

end Scan

/-! ### Where separators begin -/

/-- The separator that begins at the start of a text, where the scan stands before it. -/
def separatorFrom? (separators : List (List Char)) (st : Scan) : List Char → Option (List Char)
  | []     => none
  | c :: s => if st.separates c then separatorAt? separators (c :: s) else none

/-- No separator begins within a text that is scanned from somewhere and has another after it. -/
def Whole (separators : List (List Char)) (after : List Char) : Scan → List Char → Prop
  | _,  []     => True
  | st, c :: s =>
    separatorFrom? separators st (c :: s ++ after) = none ∧ Whole separators after (st.step c) s

section

variable {separators : List (List Char)} {st : Scan} {s t after sep : List Char} {c : Char}

theorem eq_append_of_separatorAt? (h : separatorAt? separators s = some sep) :
    sep ∈ separators ∧ sep ≠ [] ∧ ∃ rest, s = sep ++ rest := by
  have hfound := List.find?_some h
  rw [Bool.and_eq_true, startsWith, Option.isSome_iff_exists] at hfound
  obtain ⟨hne, rest, hrest⟩ := hfound
  exact ⟨List.mem_of_find?_eq_some h, by simpa using hne, rest, after?_eq_some_iff.mp hrest⟩

/-- A separator at the start of a text is there whatever comes after the text. -/
theorem separatorAt?_eq_none_of_append (h : separatorAt? separators (s ++ t) = none) :
    separatorAt? separators s = none := by
  rw [separatorAt?, List.find?_eq_none] at h ⊢
  intro sep hsep hs
  refine h sep hsep ?_
  rw [Bool.and_eq_true, startsWith, Option.isSome_iff_exists] at hs ⊢
  obtain ⟨hne, rest, hrest⟩ := hs
  refine ⟨hne, rest ++ t, ?_⟩
  rw [after?_eq_some_iff.mp hrest, List.append_assoc, after?_append]

theorem separatorFrom?_eq_none_of_append (h : separatorFrom? separators st (s ++ t) = none) :
    separatorFrom? separators st s = none := by
  cases s with
  | nil => rfl
  | cons c s =>
    rw [List.cons_append, separatorFrom?] at h
    rw [separatorFrom?]
    split
    · next hc =>
      rw [if_pos hc, ← List.cons_append] at h
      exact separatorAt?_eq_none_of_append h
    · rfl

/-- A separator that begins in a text is the next of it, and the scan stands at the start. -/
theorem eq_append_of_separatorFrom? (h : separatorFrom? separators st s = some sep) :
    sep ∈ separators ∧ sep ≠ [] ∧ (∃ rest, s = sep ++ rest) ∧ st = {} := by
  cases s with
  | nil => cases h
  | cons c s =>
    rw [separatorFrom?] at h
    split at h
    · next hc =>
      obtain ⟨hmem, hne, hrest⟩ := eq_append_of_separatorAt? h
      exact ⟨hmem, hne, hrest, Scan.eq_start_of_separates hc⟩
    · cases h

theorem whole_append_iff :
    Whole separators after st (s ++ t) ↔
      Whole separators (t ++ after) st s ∧ Whole separators after (st.run s) t := by
  induction s generalizing st with
  | nil => simp [Whole]
  | cons c s ih => simp [Whole, ih, and_assoc]

/-- A text stays whole when what comes after it is cut off. -/
theorem Whole.of_append (h : Whole separators (after ++ t) st s) : Whole separators after st s := by
  induction s generalizing st with
  | nil => trivial
  | cons c s ih =>
    refine ⟨separatorFrom?_eq_none_of_append (t := t) ?_, ih h.2⟩
    simpa using h.1

/-- No separator begins at a place within a whole text. -/
theorem Whole.separatorFrom?_eq_none (h : Whole separators [] st (s ++ t)) :
    separatorFrom? separators (st.run s) t = none := by
  have ht := (whole_append_iff.mp h).2
  cases t with
  | nil => rfl
  | cons c t => simpa using ht.1

end

/-! ### One step after the other -/

section

variable {separators : List (List Char)} {st : Scan} {piece : List Char}
  {ended : List (List Char × List Char)} {s t sep : List Char}

/-- What belongs to a separator is passed over. -/
theorem cutsFrom_append_of_length {skip : Nat} (h : s.length = skip) :
    cutsFrom separators st skip piece ended (s ++ t) = cutsFrom separators st 0 piece ended t := by
  induction s generalizing skip with
  | nil => rw [← h]; rfl
  | cons c s ih =>
    obtain rfl : s.length + 1 = skip := by simpa using h
    rw [List.cons_append, cutsFrom]
    exact ih rfl

/-- A whole text goes to the piece. -/
theorem cutsFrom_append_of_whole (h : Whole separators t st s) :
    cutsFrom separators st 0 piece ended (s ++ t) =
      cutsFrom separators (st.run s) 0 (s.reverse ++ piece) ended t := by
  induction s generalizing st piece with
  | nil => rfl
  | cons c s ih =>
    have hnone := h.1
    rw [List.cons_append, separatorFrom?] at hnone
    rw [List.cons_append, cutsFrom, hnone]
    simpa using ih h.2

/-- A separator ends the piece. -/
theorem cutsFrom_of_separatorFrom? (h : separatorFrom? separators st (sep ++ t) = some sep) :
    cutsFrom separators st 0 piece ended (sep ++ t) =
      cutsFrom separators st 0 [] ((piece.reverse, sep) :: ended) t := by
  obtain ⟨-, hne, -, -⟩ := eq_append_of_separatorFrom? h
  obtain ⟨c, s, rfl⟩ := List.exists_cons_of_ne_nil hne
  rw [List.cons_append, separatorFrom?] at h
  rw [List.cons_append, cutsFrom, h]
  exact cutsFrom_append_of_length (by simp)

end

/-! ### The cuts of a rule -/

/-- What a rule is cut into at its separators. -/
inductive Cutting (separators : List (List Char)) : List Char → Cuts → Prop where
  /-- A rule without a separator. -/
  | whole {s : List Char} (h : Whole separators [] {} s) : Cutting separators s ⟨[], s⟩
  /-- A piece, the separator that ends it, and the rest. -/
  | cut {piece sep rest : List Char} {cuts : Cuts} (hpiece : Whole separators (sep ++ rest) {} piece)
      (hclosed : ({} : Scan).run piece = {})
      (hsep : separatorFrom? separators {} (sep ++ rest) = some sep)
      (hrest : Cutting separators rest cuts) :
      Cutting separators (piece ++ (sep ++ rest)) ⟨(piece, sep) :: cuts.ended, cuts.last⟩

variable {separators : List (List Char)}

theorem Cutting.cutsFrom_eq {s : List Char} {cuts : Cuts} (h : Cutting separators s cuts)
    (ended : List (List Char × List Char)) :
    cutsFrom separators {} 0 [] ended s = ⟨ended.reverse ++ cuts.ended, cuts.last⟩ := by
  induction h generalizing ended with
  | @whole s h =>
    have hs : cutsFrom separators {} 0 [] ended (s ++ []) = _ := cutsFrom_append_of_whole h
    rw [List.append_nil] at hs
    rw [hs, cutsFrom]
    simp
  | @cut piece sep rest cuts hpiece hclosed hsep _ ih =>
    rw [cutsFrom_append_of_whole hpiece, hclosed, cutsFrom_of_separatorFrom? hsep, ih]
    simp

/-- A text is whole, or a separator begins in it and none before. -/
theorem whole_or_cut (separators : List (List Char)) (st : Scan) (s : List Char) :
    Whole separators [] st s ∨ ∃ piece sep rest, s = piece ++ (sep ++ rest) ∧
      Whole separators (sep ++ rest) st piece ∧
      separatorFrom? separators (st.run piece) (sep ++ rest) = some sep := by
  induction s generalizing st with
  | nil => exact .inl trivial
  | cons c s ih =>
    cases hfrom : separatorFrom? separators st (c :: s) with
    | some sep =>
      obtain ⟨-, -, ⟨rest, hrest⟩, -⟩ := eq_append_of_separatorFrom? hfrom
      exact .inr ⟨[], sep, rest, hrest, trivial, hrest ▸ hfrom⟩
    | none =>
      rcases ih (st.step c) with h | ⟨piece, sep, rest, rfl, hpiece, hsep⟩
      · exact .inl ⟨by simpa using hfrom, h⟩
      · exact .inr ⟨c :: piece, sep, rest, rfl, ⟨by simpa using hfrom, hpiece⟩, hsep⟩

theorem exists_cutting (separators : List (List Char)) (s : List Char) :
    ∃ cuts, Cutting separators s cuts := by
  induction hn : s.length using Nat.strong_induction_on generalizing s with
  | _ n ih =>
    rcases whole_or_cut separators {} s with h | ⟨piece, sep, rest, rfl, hpiece, hsep⟩
    · exact ⟨_, .whole h⟩
    · obtain ⟨-, hne, -, hclosed⟩ := eq_append_of_separatorFrom? hsep
      rw [hclosed] at hsep
      have hshorter : rest.length < n := by
        have := List.length_pos_iff.mpr hne
        simp at hn
        omega
      obtain ⟨cuts, hrest⟩ := ih _ hshorter rest rfl
      exact ⟨_, .cut hpiece hclosed hsep hrest⟩

/-- **The cuts of a rule** are those of the grammar. -/
theorem cuts_eq_iff {rule : List Char} {cut : Cuts} :
    cuts separators rule = cut ↔ Cutting separators rule cut := by
  have hcuts : ∀ {cut}, Cutting separators rule cut → cuts separators rule = cut := fun h => by
    rw [cuts, h.cutsFrom_eq, List.reverse_nil, List.nil_append]
  refine ⟨?_, hcuts⟩
  rintro rfl
  obtain ⟨cut, hcut⟩ := exists_cutting separators rule
  rwa [hcuts hcut]

end Scrape.Rule
