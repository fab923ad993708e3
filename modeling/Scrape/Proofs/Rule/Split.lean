import Scrape.Proofs.Rule.Cut
import Scrape.Proofs.Text.Blank

/-!
# Rule — Split, its laws

What a rule is split into is not split again: no separator begins within a piece (`Cutting.whole`),
nor within the piece without the blanks at its ends (`whole_of_mem_split`).  And parts joined by a
separator are split into these parts, when each is closed and holds no character of the separator at
the top level (`Joinable`).

Main statement (`split_joined`): both, for all separators, parts and rules.
-/

namespace Scrape.Rule

open Scrape.Text (after?_append exists_eq_append_trim isBlank startsWith trim trim_trim)

/-! ### Pieces -/

/-- The pieces of a rule that is cut. -/
def Cuts.pieces (cut : Cuts) : List (List Char) := cut.ended.map Prod.fst ++ [cut.last]

section

variable {separators : List (List Char)} {s p : List Char} {cut : Cuts}

theorem Cuts.pieces_cons (piece sep : List Char) (cut : Cuts) :
    (Cuts.mk ((piece, sep) :: cut.ended) cut.last).pieces = piece :: cut.pieces := rfl

theorem Scan.run_of_isBlank (h : ∀ c ∈ s, isBlank c = true) : ({} : Scan).run s = {} := by
  induction s with
  | nil => rfl
  | cons c s ih =>
    rw [List.forall_mem_cons] at h
    rw [Scan.run_cons, Scan.start_step_of_separates (Scan.separates_of_isBlank h.1), ih h.2]

/-- No separator begins within a whole text without the blanks at its ends. -/
theorem Whole.trim (h : Whole separators [] {} s) : Whole separators [] {} (trim s) := by
  obtain ⟨before, after, hbefore, -, hs⟩ := exists_eq_append_trim s
  rw [hs, whole_append_iff, whole_append_iff, Scan.run_of_isBlank hbefore] at h
  exact Whole.of_append (t := after ++ []) h.2.1

/-- No separator begins within a piece. -/
theorem Cutting.whole_of_mem (h : Cutting separators s cut) (hp : p ∈ cut.pieces) :
    Whole separators [] {} p := by
  induction h with
  | whole h =>
    obtain rfl : p = _ := by simpa [Cuts.pieces] using hp
    exact h
  | @cut piece sep rest cuts hpiece _ _ _ ih =>
    rw [Cuts.pieces_cons, List.mem_cons] at hp
    rcases hp with rfl | hp
    · exact Whole.of_append (t := sep ++ rest) hpiece
    · exact ih hp

theorem split_of_whole (h : Whole separators [] {} s) : split separators s = [Text.trim s] := by
  rw [split, cuts_eq_iff.mpr (.whole h)]
  rfl

/-- What a rule is split into is what is left of its pieces. -/
theorem Cutting.mem_split (h : Cutting separators s cut) (hp : p ∈ split separators s) :
    ∃ piece ∈ cut.pieces, p = Text.trim piece := by
  cases h with
  | whole h =>
    rw [split_of_whole h, List.mem_singleton] at hp
    exact ⟨s, List.mem_singleton_self s, hp⟩
  | cut hpiece hclosed hsep hrest =>
    rw [split, cuts_eq_iff.mpr (.cut hpiece hclosed hsep hrest)] at hp
    obtain ⟨piece, hmem, rfl⟩ := List.mem_map.mp (List.mem_of_mem_filter hp)
    exact ⟨piece, hmem, rfl⟩

/-- No separator begins within what a rule is split into. -/
theorem whole_of_mem_split (hp : p ∈ split separators s) : Whole separators [] {} p := by
  have hcut := cuts_eq_iff.mp (rfl : cuts separators s = _)
  obtain ⟨piece, hmem, rfl⟩ := hcut.mem_split hp
  exact (hcut.whole_of_mem hmem).trim

theorem trim_of_mem_split (hp : p ∈ split separators s) : Text.trim p = p := by
  obtain ⟨piece, -, rfl⟩ := (cuts_eq_iff.mp (rfl : cuts separators s = _)).mem_split hp
  exact trim_trim piece

/-- A rule is split into its pieces without the blanks at their ends, if something is left of each. -/
theorem Cutting.split_eq_map (h : Cutting separators s cut)
    (hpieces : ∀ p ∈ cut.pieces, Text.trim p ≠ []) :
    split separators s = cut.pieces.map Text.trim := by
  cases h with
  | whole h => exact split_of_whole h
  | cut hpiece hclosed hsep hrest =>
    rw [split, cuts_eq_iff.mpr (.cut hpiece hclosed hsep hrest)]
    change List.filter _ ((Cuts.pieces _).map Text.trim) = _
    rw [List.filter_eq_self]
    intro p hp
    obtain ⟨piece, hmem, rfl⟩ := List.mem_map.mp hp
    simpa using hpieces piece hmem

/-- Pieces with nothing to trim are what the rule is split into. -/
theorem Cutting.split_eq (h : Cutting separators s cut)
    (hpieces : ∀ p ∈ cut.pieces, p ≠ [] ∧ Text.trim p = p) : split separators s = cut.pieces := by
  rw [h.split_eq_map fun p hp => by rw [(hpieces p hp).2]; exact (hpieces p hp).1]
  exact (List.map_congr_left fun p hp => (hpieces p hp).2).trans (List.map_id _)

end

/-! ### Parts joined by a separator -/

/-- The characters of a text that the scan from somewhere meets at the top level. -/
def topLevel : Scan → List Char → List Char
  | _,  []     => []
  | st, c :: s => if st.separates c then c :: topLevel (st.step c) s else topLevel (st.step c) s

theorem mem_of_mem_topLevel {c : Char} {st : Scan} {s : List Char} (h : c ∈ topLevel st s) :
    c ∈ s := by
  induction s generalizing st with
  | nil => exact h
  | cons a s ih =>
    rw [topLevel] at h
    split at h
    · rcases List.mem_cons.mp h with rfl | h
      · exact List.mem_cons_self
      · exact List.mem_cons_of_mem a (ih h)
    · exact List.mem_cons_of_mem a (ih h)

/-- The characters that mean something to a scan. -/
def marks : List Char := ['\\', '"', '\'', '(', '[', '\x7b', ')', ']', '\x7d']

/-- A part that can be joined to others by a separator: it is not empty, has no blanks at its ends,
leaves no quote, bracket or backslash open, and has no character of the separator at the top
level. -/
structure Joinable (sep part : List Char) : Prop where
  ne_nil : part ≠ []
  trimmed : trim part = part
  closed : ({} : Scan).run part = {}
  apart : ∀ c ∈ topLevel {} part, c ∉ sep

instance (sep part : List Char) : Decidable (Joinable sep part) :=
  decidable_of_iff (part ≠ [] ∧ trim part = part ∧ ({} : Scan).run part = {} ∧
      (topLevel {} part).all fun c => !sep.contains c)
    ⟨fun ⟨hne, htrim, hclosed, hapart⟩ => ⟨hne, htrim, hclosed, by simpa using hapart⟩,
      fun h => ⟨h.ne_nil, h.trimmed, h.closed, by simpa using h.apart⟩⟩

section

variable {sep part after : List Char} {parts : List (List Char)}

/-- Where no character of a separator is at the top level, the separator does not begin. -/
theorem whole_of_apart {st : Scan} {s : List Char} (h : ∀ c ∈ topLevel st s, c ∉ sep) :
    Whole [sep] after st s := by
  induction s generalizing st with
  | nil => trivial
  | cons c s ih =>
    rw [topLevel] at h
    refine ⟨?_, ih fun x hx => h x ?_⟩
    · rw [List.cons_append, separatorFrom?]
      split
      · next hc =>
        rw [if_pos hc] at h
        cases hsep : separatorAt? [sep] (c :: (s ++ after)) with
        | none => rfl
        | some found =>
          obtain ⟨hmem, hne, rest, hrest⟩ := eq_append_of_separatorAt? hsep
          obtain rfl := List.mem_singleton.mp hmem
          obtain ⟨a, l, rfl⟩ := List.exists_cons_of_ne_nil hne
          obtain ⟨rfl, -⟩ := List.cons.inj hrest
          exact absurd List.mem_cons_self (h c List.mem_cons_self)
      · rfl
    · split
      · exact List.mem_cons_of_mem c hx
      · exact hx

/-- A separator that holds no mark begins where it stands at the start of a rule. -/
theorem separatorFrom?_append (hne : sep ≠ []) (hmarks : ∀ c ∈ sep, c ∉ marks) (rest : List Char) :
    separatorFrom? [sep] {} (sep ++ rest) = some sep := by
  have hat : separatorAt? [sep] (sep ++ rest) = some sep := by
    simp [separatorAt?, startsWith, after?_append, hne]
  obtain ⟨c, s, rfl⟩ := List.exists_cons_of_ne_nil hne
  have hc : ({} : Scan).separates c = true := by
    simpa [Scan.separates, marks] using hmarks c List.mem_cons_self
  rw [List.cons_append, separatorFrom?, if_pos hc]
  exact hat

/-- Parts that are joined by a separator are the pieces, if none is left open or holds a character
of the separator at the top level. -/
theorem exists_cutting_intercalate (hne : sep ≠ []) (hmarks : ∀ c ∈ sep, c ∉ marks)
    (hparts : parts ≠ [])
    (h : ∀ p ∈ parts, ({} : Scan).run p = {} ∧ ∀ c ∈ topLevel {} p, c ∉ sep) :
    ∃ cut, Cutting [sep] (sep.intercalate parts) cut ∧ cut.pieces = parts := by
  induction parts with
  | nil => exact absurd rfl hparts
  | cons p ps ih =>
    rw [List.forall_mem_cons] at h
    obtain ⟨⟨hclosed, hapart⟩, hps⟩ := h
    cases ps with
    | nil => exact ⟨⟨[], p⟩, by simpa using Cutting.whole (whole_of_apart hapart), rfl⟩
    | cons q ps =>
      obtain ⟨cut, hcut, hpieces⟩ := ih (List.cons_ne_nil q ps) hps
      refine ⟨_, ?_, (Cuts.pieces_cons p sep cut).trans (congrArg _ hpieces)⟩
      rw [List.intercalate_cons_cons, List.append_assoc]
      exact .cut (whole_of_apart hapart) hclosed (separatorFrom?_append hne hmarks _) hcut

theorem exists_cutting_joined (hne : sep ≠ []) (hmarks : ∀ c ∈ sep, c ∉ marks) (hparts : parts ≠ [])
    (h : ∀ p ∈ parts, Joinable sep p) :
    ∃ cut, Cutting [sep] (sep.intercalate parts) cut ∧ cut.pieces = parts :=
  exists_cutting_intercalate hne hmarks hparts fun p hp => ⟨(h p hp).closed, (h p hp).apart⟩

end

/-- **Splitting undoes joining, and is done once.**  Parts that are joined by a separator are what
the rule is split into, if each can be joined by it; and what a rule is split into is not split
again. -/
theorem split_joined :
    (∀ (sep : List Char) (parts : List (List Char)), sep ≠ [] → (∀ c ∈ sep, c ∉ marks) →
      parts ≠ [] → (∀ p ∈ parts, Joinable sep p) → split [sep] (sep.intercalate parts) = parts) ∧
    ∀ (separators : List (List Char)) (rule : List Char), ∀ p ∈ split separators rule,
      split separators p = [p] := by
  constructor
  · intro sep parts hne hmarks hparts h
    obtain ⟨cut, hcut, rfl⟩ := exists_cutting_joined hne hmarks hparts h
    exact hcut.split_eq fun p hp => ⟨(h p hp).ne_nil, (h p hp).trimmed⟩
  · intro separators rule p hp
    rw [split_of_whole (whole_of_mem_split hp), trim_of_mem_split hp]

/-- Parts that hold `&&` in a literal, after a backslash and in brackets. -/
def shieldedParts : List (List Char) :=
  ["a[title='x&&y\"']".toList, "b\\&".toList, "c(\\)&&)d".toList]

/-- The shielded parts come out of a rule that joins them as they went in, and none is split. -/
theorem split_shieldedParts :
    (∀ p ∈ shieldedParts, Joinable "&&".toList p) ∧
      split ["&&".toList] ("&&".toList.intercalate shieldedParts) = shieldedParts ∧
      split ["&&".toList] "c(\\)&&)d".toList = ["c(\\)&&)d".toList] := by
  have hparts : ∀ p ∈ shieldedParts, Joinable "&&".toList p := by decide
  have hjoined : split ["&&".toList] ("&&".toList.intercalate shieldedParts) = shieldedParts :=
    split_joined.1 _ _ (by decide) (by simp [marks]) (by decide) hparts
  have hmem : "c(\\)&&)d".toList ∈
      split ["&&".toList] ("&&".toList.intercalate shieldedParts) := by
    rw [hjoined]
    decide
  exact ⟨hparts, hjoined, split_joined.2 _ _ _ hmem⟩

end Scrape.Rule
