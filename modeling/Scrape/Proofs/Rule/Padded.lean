import Mathlib.Data.List.Find
import Scrape.Proofs.Rule.Split

/-!
# Rule — Padded, a rule with something at its ends

Blanks before a rule are part of its first piece and blanks after it are part of its last one, so
that a rule is cut at the same separators and split into the same parts with and without them, if
no separator holds a blank (`split_trim`).  Where a rule leaves nothing open, another can be put
after it, with a separator of one character between them: what it is split into is what the two
are split into (`split_append`).
-/

namespace Scrape.Rule

open Scrape.Text (exists_eq_append_trim isBlank mem_trim_or_isBlank startsWith startsWith_iff trim
  trim_append_blank trim_append_of_blank trim_trim)

variable {separators : List (List Char)} {st : Scan} {s t sep blanks : List Char} {cut : Cuts}

/-- What holds no blank does not begin in blanks at the end of a text. -/
theorem startsWith_append_blanks (hsep : ∀ c ∈ sep, isBlank c = false)
    (hblanks : ∀ c ∈ blanks, isBlank c = true) (s : List Char) :
    startsWith sep (s ++ blanks) = startsWith sep s := by
  rw [Bool.eq_iff_iff, startsWith_iff, startsWith_iff]
  refine ⟨fun h => ?_, fun h => h.trans (List.prefix_append s blanks)⟩
  rcases List.prefix_or_prefix_of_prefix h (List.prefix_append s blanks) with hprefix | ⟨rest, rfl⟩
  · exact hprefix
  · have hrest : rest <+: blanks := (List.prefix_append_right_inj s).mp h
    cases rest with
    | nil => simp
    | cons c rest =>
      have hblank := hblanks c (hrest.subset List.mem_cons_self)
      rw [hsep c (by simp)] at hblank
      cases hblank

/-- No separator holds a blank. -/
def Blankless (separators : List (List Char)) : Prop :=
  ∀ sep ∈ separators, ∀ c ∈ sep, isBlank c = false

theorem separatorAt?_append_blanks (hseps : Blankless separators)
    (hblanks : ∀ c ∈ blanks, isBlank c = true) (s : List Char) :
    separatorAt? separators (s ++ blanks) = separatorAt? separators s := by
  refine List.find?_congr fun sep hsep => ?_
  rw [startsWith_append_blanks (hseps sep hsep) hblanks]

/-- No separator begins with a blank. -/
theorem separatorAt?_of_isBlank (hseps : Blankless separators) {c : Char} (hc : isBlank c = true)
    (s : List Char) : separatorAt? separators (c :: s) = none := by
  rw [separatorAt?, List.find?_eq_none]
  intro sep hsep hstart
  rw [Bool.and_eq_true, startsWith_iff] at hstart
  obtain ⟨hne, hprefix⟩ := hstart
  cases sep with
  | nil => cases hne
  | cons d sep =>
    obtain ⟨rfl, -⟩ := List.cons_prefix_cons.mp hprefix
    rw [hseps _ hsep d List.mem_cons_self] at hc
    cases hc

theorem separatorFrom?_append_blanks (hseps : Blankless separators)
    (hblanks : ∀ c ∈ blanks, isBlank c = true) (st : Scan) (s : List Char) :
    separatorFrom? separators st (s ++ blanks) = separatorFrom? separators st s := by
  cases s with
  | nil =>
    cases blanks with
    | nil => rfl
    | cons c blanks =>
      have hnone := separatorAt?_of_isBlank hseps (hblanks c List.mem_cons_self) blanks
      simp [separatorFrom?, hnone]
  | cons c s =>
    rw [List.cons_append, separatorFrom?, separatorFrom?, ← List.cons_append,
      separatorAt?_append_blanks hseps hblanks]

/-- Blanks are whole, wherever they are scanned from. -/
theorem whole_blanks (hseps : Blankless separators) (hblanks : ∀ c ∈ blanks, isBlank c = true)
    (st : Scan) : Whole separators t st blanks := by
  induction blanks generalizing st with
  | nil => trivial
  | cons c blanks ih =>
    rw [List.forall_mem_cons] at hblanks
    refine ⟨?_, ih hblanks.2 _⟩
    rw [List.cons_append, separatorFrom?, separatorAt?_of_isBlank hseps hblanks.1, ite_self]

/-- A whole text stays whole when blanks come after what follows it. -/
theorem Whole.append_blanks (h : Whole separators t st s) (hseps : Blankless separators)
    (hblanks : ∀ c ∈ blanks, isBlank c = true) : Whole separators (t ++ blanks) st s := by
  induction s generalizing st with
  | nil => trivial
  | cons c s ih =>
    refine ⟨?_, ih h.2⟩
    rw [← List.append_assoc, separatorFrom?_append_blanks hseps hblanks]
    exact h.1

/-- Blanks after a rule are part of its last piece. -/
theorem Cutting.exists_append_blanks (h : Cutting separators s cut) (hseps : Blankless separators)
    (hblanks : ∀ c ∈ blanks, isBlank c = true) :
    ∃ last, Cutting separators (s ++ blanks) ⟨cut.ended, last⟩ ∧ trim last = trim cut.last := by
  induction h with
  | @whole s h =>
    have hwhole : Whole separators (blanks ++ []) {} s := by
      rw [List.append_nil]
      exact h.append_blanks (t := []) hseps hblanks
    exact ⟨s ++ blanks, .whole (whole_append_iff.mpr ⟨hwhole, whole_blanks hseps hblanks _⟩),
      trim_append_blank hblanks s⟩
  | @cut piece sep rest cuts hpiece hclosed hsep _ ih =>
    obtain ⟨last, hcut, hlast⟩ := ih
    have hpiece' := hpiece.append_blanks hseps hblanks
    have hsep' := (separatorFrom?_append_blanks hseps hblanks {} (sep ++ rest)).trans hsep
    rw [List.append_assoc] at hpiece' hsep'
    refine ⟨last, ?_, hlast⟩
    rw [List.append_assoc, List.append_assoc]
    exact .cut hpiece' hclosed hsep' hcut

/-- Blanks before a rule are part of its first piece. -/
theorem Cutting.exists_blanks_append (h : Cutting separators s cut) (hseps : Blankless separators)
    (hblanks : ∀ c ∈ blanks, isBlank c = true) :
    ∃ cut', Cutting separators (blanks ++ s) cut' ∧
      cut'.ended.map Prod.snd = cut.ended.map Prod.snd ∧
        cut'.pieces.map trim = cut.pieces.map trim := by
  cases h with
  | whole h =>
    refine ⟨⟨[], blanks ++ s⟩,
      .whole (whole_append_iff.mpr ⟨whole_blanks hseps hblanks _, ?_⟩), rfl, ?_⟩
    · rwa [Scan.run_of_isBlank hblanks]
    · simp [Cuts.pieces, trim_append_of_blank hblanks]
  | @cut piece sep rest cuts hpiece hclosed hsep hrest =>
    have hrun := Scan.run_of_isBlank hblanks
    refine ⟨⟨(blanks ++ piece, sep) :: cuts.ended, cuts.last⟩, ?_, rfl, ?_⟩
    · rw [← List.append_assoc]
      refine .cut (whole_append_iff.mpr ⟨whole_blanks hseps hblanks _, by rwa [hrun]⟩) ?_ hsep hrest
      rw [Scan.run_append, hrun, hclosed]
    · simp [Cuts.pieces, trim_append_of_blank hblanks]

/-- **Trimming** changes neither the separators of a rule nor what it is split into. -/
theorem split_trim (hseps : Blankless separators) (s : List Char) :
    firstSeparator? separators (trim s) = firstSeparator? separators s ∧
      split separators (trim s) = split separators s := by
  obtain ⟨before, after, hbefore, hafter, hs⟩ := exists_eq_append_trim s
  have hcut := cuts_eq_iff.mp (rfl : cuts separators (trim s) = _)
  obtain ⟨last, hend, hlast⟩ := hcut.exists_append_blanks hseps hafter
  obtain ⟨cut', hcut', hended, hpieces⟩ := hend.exists_blanks_append hseps hbefore
  rw [← hs] at hcut'
  have hcuts := cuts_eq_iff.mpr hcut'
  have hempty : cut'.ended.isEmpty = (cuts separators (trim s)).ended.isEmpty := by
    have := congrArg List.isEmpty hended
    simpa using this
  have htrimmed : cut'.pieces.map trim = (cuts separators (trim s)).pieces.map trim := by
    rw [hpieces]
    simp [Cuts.pieces, hlast]
  constructor
  · rw [firstSeparator?, firstSeparator?, hcuts, ← List.head?_map, ← List.head?_map, hended]
  · rw [split, split, hcuts, trim_trim, hempty]
    split
    · rfl
    · exact congrArg _ htrimmed.symm

/-! ### One rule after another -/

variable {d : Char} {cut' : Cuts}

theorem separatorFrom?_cons (d : Char) (st : Scan) (c : Char) (s : List Char) :
    separatorFrom? [[d]] st (c :: s) =
      if st.separates c = true ∧ d = c then some [d] else none := by
  by_cases hseparates : st.separates c = true
  · by_cases hc : d = c
    · simp [separatorFrom?, separatorAt?, startsWith, Text.after?, hseparates, hc]
    · simp [separatorFrom?, separatorAt?, startsWith, Text.after?, hseparates, hc]
  · simp [separatorFrom?, hseparates]

theorem separatorFrom?_singleton_append (hd : ({} : Scan).separates d = true) (s : List Char) :
    separatorFrom? [[d]] {} ([d] ++ s) = some [d] := by
  rw [List.singleton_append, separatorFrom?_cons, if_pos ⟨hd, rfl⟩]

/-- Whether a separator of one character begins in a text does not depend on what comes after. -/
theorem Whole.change {after : List Char} (h : Whole [[d]] t st s) : Whole [[d]] after st s := by
  induction s generalizing st with
  | nil => trivial
  | cons c s ih =>
    have hnone := h.1
    rw [List.cons_append, separatorFrom?_cons] at hnone
    refine ⟨?_, ih h.2⟩
    rw [List.cons_append, separatorFrom?_cons, hnone]

theorem Cuts.pieces_append (cut cut' : Cuts) (sep : List Char) :
    (Cuts.mk (cut.ended ++ (cut.last, sep) :: cut'.ended) cut'.last).pieces =
      cut.pieces ++ cut'.pieces := by
  simp [Cuts.pieces]

/-- A rule that leaves nothing open is cut as it is alone when a separator and another rule come
after it. -/
theorem Cutting.append (h : Cutting [[d]] s cut) (hclosed : ({} : Scan).run s = {})
    (hd : ({} : Scan).separates d = true) (h' : Cutting [[d]] t cut') :
    Cutting [[d]] (s ++ d :: t) ⟨cut.ended ++ (cut.last, [d]) :: cut'.ended, cut'.last⟩ := by
  induction h with
  | @whole s h =>
    exact .cut h.change hclosed (separatorFrom?_singleton_append hd t) h'
  | @cut piece sep rest cuts hpiece hpieceClosed hsep _ ih =>
    obtain ⟨hmem, -, -, -⟩ := eq_append_of_separatorFrom? hsep
    obtain rfl := List.mem_singleton.mp hmem
    have hrestClosed : ({} : Scan).run rest = {} := by
      rwa [Scan.run_append, hpieceClosed, List.singleton_append, Scan.run_cons,
        Scan.start_step_of_separates hd] at hclosed
    rw [List.append_assoc, List.append_assoc]
    exact .cut hpiece.change hpieceClosed (separatorFrom?_singleton_append hd _) (ih hrestClosed)

/-- Where a rule ends, the scan stands as at the end of its last piece. -/
theorem Cutting.run_eq (h : Cutting [[d]] s cut) (hd : ({} : Scan).separates d = true) :
    ({} : Scan).run s = ({} : Scan).run cut.last := by
  induction h with
  | whole h => rfl
  | @cut piece sep rest cuts _ hclosed hsep _ ih =>
    obtain ⟨hmem, -, -, -⟩ := eq_append_of_separatorFrom? hsep
    obtain rfl := List.mem_singleton.mp hmem
    rw [Scan.run_append, hclosed, List.singleton_append, Scan.run_cons,
      Scan.start_step_of_separates hd, ih]

/-- Where a rule leaves something open, its last piece is more than blanks. -/
theorem Cutting.trim_last_ne_nil (h : Cutting [[d]] s cut) (hd : ({} : Scan).separates d = true)
    (hopen : ({} : Scan).run s ≠ {}) : trim cut.last ≠ [] := by
  intro hnil
  have hblank : ∀ c ∈ cut.last, isBlank c = true := fun c hc =>
    (mem_trim_or_isBlank hc).resolve_left (by simp [hnil])
  rw [h.run_eq hd, Scan.run_of_isBlank hblank] at hopen
  exact hopen rfl

/-- What comes after a rule and holds no separator is part of its last piece. -/
theorem Cutting.append_whole (h : Cutting [[d]] s cut) (hd : ({} : Scan).separates d = true)
    (ht : Whole [[d]] [] (({} : Scan).run s) t) :
    Cutting [[d]] (s ++ t) ⟨cut.ended, cut.last ++ t⟩ := by
  rw [h.run_eq hd] at ht
  induction h with
  | whole h => exact .whole (whole_append_iff.mpr ⟨h.change, ht⟩)
  | cut hpiece hclosed hsep _ ih =>
    obtain ⟨hmem, -, -, -⟩ := eq_append_of_separatorFrom? hsep
    obtain rfl := List.mem_singleton.mp hmem
    rw [List.append_assoc, List.append_assoc]
    exact .cut hpiece.change hclosed (separatorFrom?_singleton_append hd _) (ih ht)

/-- Of a rule that goes on, the last piece goes on, and those before it stay. -/
theorem Cutting.exists_append (h : Cutting [[d]] s cut) (hd : ({} : Scan).separates d = true)
    (t : List Char) : ∃ u cut', Cutting [[d]] (s ++ t) cut' ∧
      cut.ended.map Prod.fst ++ [cut.last ++ u] <+: cut'.pieces := by
  rcases whole_or_cut [[d]] (({} : Scan).run s) t with ht | ⟨piece, sep, rest, rfl, hpiece, hsep⟩
  · exact ⟨t, _, h.append_whole hd ht, List.prefix_rfl⟩
  · obtain ⟨hmem, -, -, hclosed⟩ := eq_append_of_separatorFrom? hsep
    obtain rfl := List.mem_singleton.mp hmem
    obtain ⟨cut', hcut'⟩ := exists_cutting [[d]] rest
    rw [← Scan.run_append] at hclosed
    have hcuts := (h.append_whole hd hpiece.change).append hclosed hd hcut'
    rw [List.append_assoc] at hcuts
    refine ⟨piece, _, hcuts, ?_⟩
    rw [Cuts.pieces_append]
    exact List.prefix_append _ _

/-- What is left of texts when they are trimmed. -/
def remains (pieces : List (List Char)) : List (List Char) :=
  (pieces.map trim).filter fun p => !p.isEmpty

theorem remains_append (l l' : List (List Char)) : remains (l ++ l') = remains l ++ remains l' := by
  rw [remains, List.map_append, List.filter_append, remains, remains]

theorem remains_singleton (hs : trim s ≠ []) : remains [s] = [trim s] := by
  simp [remains, hs]

/-- A rule is split into what is left of its pieces, if it is split into nothing empty. -/
theorem Cutting.split_eq_remains (h : Cutting separators s cut) (hs : [] ∉ split separators s) :
    split separators s = remains cut.pieces := by
  cases h with
  | whole h =>
    rw [split_of_whole h] at hs ⊢
    have hne : trim s ≠ [] := fun hnil => hs (hnil ▸ List.mem_singleton_self _)
    simp [remains, Cuts.pieces, hne]
  | cut hpiece hclosed hsep hrest =>
    rw [split, cuts_eq_iff.mpr (.cut hpiece hclosed hsep hrest)]
    rfl

/-- **A rule after another** is split into what it is split into alone. -/
theorem split_append (hclosed : ({} : Scan).run s = {}) (hd : ({} : Scan).separates d = true)
    (hs : [] ∉ split [[d]] s) (ht : [] ∉ split [[d]] t) :
    split [[d]] (s ++ d :: t) = split [[d]] s ++ split [[d]] t := by
  have hcut := cuts_eq_iff.mp (rfl : cuts [[d]] s = _)
  have hcut' := cuts_eq_iff.mp (rfl : cuts [[d]] t = _)
  have hpieces :
      split [[d]] (s ++ d :: t) = remains ((cuts [[d]] s).pieces ++ (cuts [[d]] t).pieces) := by
    rw [split, cuts_eq_iff.mpr (hcut.append hclosed hd hcut'), if_neg (by simp),
      ← Cuts.pieces_append _ _ [d]]
    rfl
  rw [hpieces, remains_append, ← hcut.split_eq_remains hs, ← hcut'.split_eq_remains ht]

end Scrape.Rule
