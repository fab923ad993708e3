import Mathlib.Data.List.DropRight
import Mathlib.Data.List.Infix
import Scrape.Proofs.Text.Find
import Scrape.Text.Blank

/-!
# Text — Blank, its laws

Taking the blanks off the ends of a text takes nothing else off it (`exists_eq_append_trim`), so that
the text is an infix of what it was (`infix_trim`), and whatever holds no blank is an infix of both
or of none (`infix_trim_iff`); and splitting a text gives the same pieces, up to the blanks at their
ends (`map_trim_splitOn_trim`).  A second time nothing is left to take off (`trim_trim`), and of a text
that follows a trimmed one only the end is trimmed (`trim_append`).  The first word of a text is what
stands before its first blank (`words_append_cons`).
-/

namespace Scrape.Text

theorem suffix_trimStart (s : List Char) : trimStart s <:+ s := List.dropWhile_suffix isBlank

theorem prefix_trimEnd (s : List Char) : trimEnd s <+: s := by
  rw [trimEnd, ← List.reverse_suffix, List.reverse_reverse]
  exact List.dropWhile_suffix isBlank

/-- **What trimming takes off** are blanks. -/
theorem exists_eq_append_trim (s : List Char) :
    ∃ before after, (∀ c ∈ before, isBlank c = true) ∧ (∀ c ∈ after, isBlank c = true) ∧
      s = before ++ (trim s ++ after) := by
  have hend (t : List Char) : trimEnd t ++ (t.reverse.takeWhile isBlank).reverse = t := by
    rw [trimEnd, ← List.reverse_append, List.takeWhile_append_dropWhile, List.reverse_reverse]
  refine ⟨s.takeWhile isBlank, ((trimStart s).reverse.takeWhile isBlank).reverse,
    fun c hc => List.mem_takeWhile_imp hc,
    fun c hc => List.mem_takeWhile_imp (List.mem_reverse.mp hc), ?_⟩
  rw [trim, hend, trimStart, List.takeWhile_append_dropWhile]

/-- A character that trimming takes off is a blank. -/
theorem mem_trim_or_isBlank {s : List Char} {c : Char} (hc : c ∈ s) :
    c ∈ trim s ∨ isBlank c = true := by
  obtain ⟨before, after, hbefore, hafter, hs⟩ := exists_eq_append_trim s
  rw [hs, List.mem_append, List.mem_append] at hc
  rcases hc with hc | hc | hc
  · exact .inr (hbefore c hc)
  · exact .inl hc
  · exact .inr (hafter c hc)

/-- A text that begins with no blank begins with none when its end is trimmed. -/
theorem trimStart_trimEnd {s : List Char} (h : trimStart s = s) :
    trimStart (trimEnd s) = trimEnd s := by
  obtain ⟨after, hafter⟩ := prefix_trimEnd s
  cases hs : trimEnd s with
  | nil => rfl
  | cons c r =>
    rw [hs] at hafter
    rw [← hafter] at h
    have hc : ¬ isBlank c = true := List.dropWhile_eq_self_iff.mp h (by simp)
    exact List.dropWhile_cons_of_neg hc

theorem trimStart_trim (s : List Char) : trimStart (trim s) = trim s :=
  trimStart_trimEnd (List.dropWhile_idempotent isBlank s)

/-- **Trimming twice** is trimming once. -/
theorem trim_trim (s : List Char) : trim (trim s) = trim s := by
  rw [trim, trimStart_trim]
  exact List.rdropWhile_idempotent isBlank (trimStart s)

theorem trimEnd_of_trim {s : List Char} (h : trim s = s) : trimEnd s = s := by
  have hstart : trimStart s = s := by rw [← h, trimStart_trim]
  rwa [trim, hstart] at h

theorem trimEnd_append {s t : List Char} (hs : trimEnd s = s) (ht : trimEnd t = t) :
    trimEnd (s ++ t) = s ++ t := by
  refine List.rdropWhile_eq_self_iff.mpr fun hne => ?_
  by_cases hnil : t = []
  · subst hnil
    simpa using List.rdropWhile_eq_self_iff.mp hs (by simpa using hne)
  · rw [List.getLast_append_of_right_ne_nil _ _ hnil]
    exact List.rdropWhile_eq_self_iff.mp ht hnil

/-- Trimming the end leaves the blanks at the beginning. -/
theorem exists_trimEnd_eq_append_trim (s : List Char) :
    ∃ before, (∀ c ∈ before, isBlank c = true) ∧ trimEnd s = before ++ trim s := by
  have hs : s = s.takeWhile isBlank ++ trimStart s := (List.takeWhile_append_dropWhile).symm
  have hblank : ∀ c ∈ s.takeWhile isBlank, isBlank c = true := fun c hc => List.mem_takeWhile_imp hc
  refine ⟨if trim s = [] then [] else s.takeWhile isBlank, ?_, ?_⟩
  · split
    · simp
    · exact hblank
  · have hend : trimEnd s = trimEnd (s.takeWhile isBlank ++ trimStart s) := by rw [← hs]
    rw [hend, trimEnd, List.reverse_append, List.dropWhile_append]
    have hempty : (((trimStart s).reverse.dropWhile isBlank).isEmpty = true) ↔ trim s = [] := by
      rw [trim, trimEnd, List.isEmpty_iff, List.reverse_eq_nil_iff]
    by_cases h : trim s = []
    · rw [if_pos (hempty.mpr h), if_pos h, h, List.append_nil, List.reverse_eq_nil_iff,
        List.dropWhile_eq_nil_iff]
      simpa using hblank
    · rw [if_neg (mt hempty.mp h), if_neg h, List.reverse_append, List.reverse_reverse]
      rfl

theorem trim_of_forall {s : List Char} (h : ∀ c ∈ s, isBlank c = false) : trim s = s := by
  have hdrop : ∀ t : List Char, (∀ c ∈ t, isBlank c = false) → t.dropWhile isBlank = t := by
    intro t ht
    cases t with
    | nil => rfl
    | cons c t => exact List.dropWhile_cons_of_neg (by simp [ht c List.mem_cons_self])
  rw [trim, trimStart, hdrop s h, trimEnd, hdrop s.reverse (by simpa using h), List.reverse_reverse]

/-- Blanks before a text are no part of it once it is trimmed. -/
theorem trim_append_of_blank {before : List Char} (h : ∀ c ∈ before, isBlank c = true)
    (s : List Char) : trim (before ++ s) = trim s := by
  rw [trim, trimStart, List.dropWhile_append_of_pos h]
  rfl

/-- Blanks after a text are no part of it once it is trimmed. -/
theorem trim_append_blank {after : List Char} (h : ∀ c ∈ after, isBlank c = true) (s : List Char) :
    trim (s ++ after) = trim s := by
  have hend (t : List Char) : trimEnd (t ++ after) = trimEnd t := by
    rw [trimEnd, List.reverse_append, List.dropWhile_append_of_pos (by simpa using h), trimEnd]
  rw [trim, trimStart, List.dropWhile_append]
  split
  · next hs =>
    rw [trim, trimStart, List.isEmpty_iff.mp hs, List.dropWhile_eq_nil_iff.mpr h]
  · exact hend _

/-- A text between two characters that are no blanks is trimmed. -/
theorem trim_cons_append {c d : Char} (hc : isBlank c = false) (hd : isBlank d = false)
    (s : List Char) : trim (c :: (s ++ [d])) = c :: (s ++ [d]) := by
  have hstart : trimStart (c :: (s ++ [d])) = c :: (s ++ [d]) :=
    List.dropWhile_cons_of_neg (by simp [hc])
  rw [trim, hstart, trimEnd, ← List.cons_append, List.reverse_append, List.reverse_singleton,
    List.singleton_append, List.dropWhile_cons_of_neg (by simp [hd])]
  simp

/-- After a trimmed text, only the end of a text is trimmed. -/
theorem trim_append {s : List Char} (hs : trim s = s) (hne : s ≠ []) (t : List Char) :
    trim (s ++ t) = s ++ trimEnd t := by
  have hstart : trimStart s = s := by rw [← hs, trimStart_trim]
  have hend : s.reverse.dropWhile isBlank = s.reverse := by
    rw [← List.reverse_inj, List.reverse_reverse]
    exact trimEnd_of_trim hs
  have happend : trimStart (s ++ t) = s ++ t := by
    obtain ⟨c, r, rfl⟩ := List.exists_cons_of_ne_nil hne
    have hc : ¬ isBlank c = true := List.dropWhile_eq_self_iff.mp hstart (by simp)
    exact List.dropWhile_cons_of_neg hc
  rw [trim, happend, trimEnd, List.reverse_append, List.dropWhile_append, hend, trimEnd]
  split
  · next h => rw [List.isEmpty_iff.mp h, List.reverse_nil, List.append_nil, List.reverse_reverse]
  · rw [List.reverse_append, List.reverse_reverse]

/-- **Trimming and splitting**: the pieces of a trimmed text are, once they are trimmed, those of the
text, where the separator is no blank. -/
theorem map_trim_splitOn_trim {d : Char} (hd : isBlank d = false) (s : List Char) :
    (splitOn [d] (trim s)).map trim = (splitOn [d] s).map trim := by
  have hnot {blanks : List Char} (h : ∀ c ∈ blanks, isBlank c = true) : d ∉ blanks := fun hmem => by
    rw [h d hmem] at hd
    cases hd
  have hstart {before : List Char} (h : ∀ c ∈ before, isBlank c = true) (t : List Char) :
      (splitOn [d] (before ++ t)).map trim = (splitOn [d] t).map trim := by
    rw [splitOn_append_of_not_mem (hnot h)]
    cases splitOn [d] t with
    | nil => rfl
    | cons p ps => simp [trim_append_of_blank h]
  -- at the end the blanks are part of the last piece, which is found after all others
  have hend {after : List Char} (h : ∀ c ∈ after, isBlank c = true) (t : List Char) :
      (splitOn [d] (t ++ after)).map trim = (splitOn [d] t).map trim := by
    induction hn : t.length using Nat.strongRecOn generalizing t with
    | ind n ih =>
      by_cases hmem : d ∈ t
      · obtain ⟨p, rest, rfl, hp⟩ := List.eq_append_cons_of_mem hmem
        have hlt : rest.length < n := by
          simp at hn
          omega
        rw [List.append_assoc, List.cons_append, splitOn_append hp, splitOn_append hp, List.map_cons,
          List.map_cons, ih rest.length hlt rest rfl]
      · have hafter : d ∉ t ++ after := by simp [hmem, hnot h]
        rw [splitOn_of_not_mem hafter, splitOn_of_not_mem hmem]
        simp [trim_append_blank h]
  obtain ⟨before, after, hbefore, hafter, hs⟩ := exists_eq_append_trim s
  calc (splitOn [d] (trim s)).map trim
      = (splitOn [d] (trim s ++ after)).map trim := (hend hafter _).symm
    _ = (splitOn [d] (before ++ (trim s ++ after))).map trim := (hstart hbefore _).symm
    _ = (splitOn [d] s).map trim := by rw [← hs]

theorem infix_trim (s : List Char) : trim s <:+: s :=
  (prefix_trimEnd (trimStart s)).isInfix.trans (suffix_trimStart s).isInfix

/-- What does not begin with a dropped character is left. -/
theorem infix_dropWhile {p : Char → Bool} {w s : List Char} (hw : ∀ c ∈ w, p c = false)
    (h : w <:+: s) : w <:+: s.dropWhile p := by
  induction s with
  | nil => exact h
  | cons c s ih =>
    rw [List.dropWhile_cons]
    split
    · next hc =>
      rcases List.infix_cons_iff.mp h with h | h
      · cases w with
        | nil => exact List.nil_infix
        | cons a w =>
          obtain ⟨rfl, -⟩ := List.cons_prefix_cons.mp h
          simp [hw a List.mem_cons_self] at hc
      · exact ih h
    · exact h

/-- **What holds no blank** is in a text if and only if it is in the trimmed text. -/
theorem infix_trim_iff {w s : List Char} (hw : ∀ c ∈ w, isBlank c = false) :
    w <:+: trim s ↔ w <:+: s := by
  refine ⟨fun h => h.trans (infix_trim s), fun h => ?_⟩
  rw [trim, trimEnd, ← List.reverse_infix, List.reverse_reverse]
  refine infix_dropWhile (by simpa using hw) (List.reverse_infix.mpr ?_)
  exact infix_dropWhile hw h

theorem isBlank_toLower (c : Char) : isBlank c.toLower = isBlank c := by
  unfold Char.toLower
  split
  · next h =>
    -- a capital letter and its small letter are both no blanks
    obtain ⟨hle, hge⟩ : 65 ≤ c.toNat ∧ c.toNat ≤ 90 := h
    have hsmall : (c.val + ('a'.val - 'A'.val)).toNat = c.toNat + 32 := by
      have : (c.val + ('a'.val - 'A'.val)).toNat = (c.toNat + 32) % 4294967296 := rfl
      omega
    rw [Bool.eq_iff_iff, isBlank, isBlank, Char.toNat, hsmall]
    simp
    omega
  · rfl

/-- Trimming a text in small letters is the same as making a trimmed text small. -/
theorem asciiLower_trim (s : List Char) : asciiLower (trim s) = trim (asciiLower s) := by
  have hblank : isBlank ∘ Char.toLower = isBlank := funext isBlank_toLower
  simp only [asciiLower, trim, trimEnd, trimStart, List.dropWhile_map, ← List.map_reverse, hblank]

theorem length_trim_le (s : List Char) : (trim s).length ≤ s.length := (infix_trim s).length_le

/-! ### Words -/

/-- The words that have been found do not change those that are found after them. -/
theorem wordsAfter_eq (found : List (List Char)) (word s : List Char) :
    wordsAfter found word s = found.reverse ++ wordsAfter [] word s := by
  induction s generalizing found word with
  | nil => unfold wordsAfter pushWord; split <;> simp
  | cons a s ih =>
    rw [wordsAfter, wordsAfter]
    split
    · rw [ih, ih (pushWord [] word)]
      unfold pushWord
      split <;> simp
    · exact ih found _

theorem wordsAfter_append {found : List (List Char)} {word s : List Char}
    (hs : ∀ c ∈ s, isBlank c = false) (t : List Char) :
    wordsAfter found word (s ++ t) = wordsAfter found (s.reverse ++ word) t := by
  induction s generalizing word with
  | nil => rfl
  | cons a s ih =>
    rw [List.cons_append, wordsAfter, hs a List.mem_cons_self, if_neg (by simp),
      ih fun c hc => hs c (List.mem_cons_of_mem a hc)]
    simp

/-- **The first word** of a text is what stands before its first blank. -/
theorem words_append_cons {s : List Char} {b : Char} (hs : ∀ c ∈ s, isBlank c = false)
    (hne : s ≠ []) (hb : isBlank b = true) (t : List Char) :
    words (s ++ b :: t) = s :: words t := by
  rw [words, wordsAfter_append hs, wordsAfter, if_pos hb, wordsAfter_eq]
  simp [pushWord, hne, words]

end Scrape.Text
