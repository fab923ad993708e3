import Scrape.Proofs.Text.Blank
import Scrape.Proofs.Text.Find
import Scrape.Proofs.Text.Integer
import Scrape.Rule.IndexSet

/-!
# Rule — Suffix

The index set at the end of a step.  What is written between the brackets of a set are integers,
colons, commas and blanks, and at most one exclamation mark, which stands first
(`IndexSet.of_ofBracket?`, `IndexSet.not_mem_of_ofBracket?`).  So no bracket stands in it, and a step that ends
with a set in brackets is split where the bracket opens (`splitIndexSuffix_bracket`).
-/

namespace Scrape.Rule

open Scrape.Text (exists_eq_append_trim isBlank isDigit isDigit_of_readNat? mem_separator_or_piece
  mem_trim_or_isBlank readInteger? readSigned? splitOn trim trimEnd trimStart
  trim_append_of_blank trim_cons_append)

/-! ### The last mark -/

section

variable {p : Char → Bool} {before after : List Char} {c : Char}

/-- The last character that satisfies `p` is the one with none after it. -/
theorem lastOf?_append (before : List Char) (hc : p c = true) (hafter : ∀ d ∈ after, p d = false) :
    lastOf? p (before ++ c :: after) = some (before, c, after) := by
  have hspan : (before ++ c :: after).reverse.span (fun d => !p d) =
      (after.reverse, c :: before.reverse) := by
    have hpass : ∀ d ∈ after.reverse, (!p d) = true := by simpa using hafter
    rw [List.span_eq_takeWhile_dropWhile, List.reverse_append, List.reverse_cons, List.append_assoc,
      List.takeWhile_append_of_pos hpass, List.dropWhile_append_of_pos hpass]
    simp [hc]
  rw [lastOf?, hspan]
  simp

end

/-! ### What is written in brackets -/

namespace IndexSet

/-- Whether the character is one of those that the entries of a set are written with. -/
def isEntryChar (c : Char) : Bool := isBlank c || isDigit c || ['+', '-', ':', ','].contains c

theorem isEntryChar_of_readInteger? {s : List Char} {i : Int} (h : readInteger? s = some i) :
    ∀ c ∈ s, isEntryChar c = true := by
  have hdigit {c : Char} (hc : isDigit c = true) : isEntryChar c = true := by
    simp [isEntryChar, hc]
  unfold readInteger? readSigned? at h
  obtain ⟨hvalue, -⟩ := Option.filter_eq_some_iff.mp h
  split at hvalue
  · next r =>
    obtain ⟨n, hn, -⟩ := by simpa [Option.bind_eq_some_iff] using hvalue
    exact List.forall_mem_cons.mpr ⟨by decide, fun c hc => hdigit (isDigit_of_readNat? hn c hc)⟩
  · next r =>
    obtain ⟨n, hn, -⟩ := Option.map_eq_some_iff.mp hvalue
    exact List.forall_mem_cons.mpr ⟨by decide, fun c hc => hdigit (isDigit_of_readNat? hn c hc)⟩
  · obtain ⟨n, hn, -⟩ := Option.map_eq_some_iff.mp hvalue
    exact fun c hc => hdigit (isDigit_of_readNat? hn c hc)

theorem isEntryChar_of_bound? {s : List Char} {b : Option Int} (h : bound? s = some b) :
    ∀ c ∈ s, isEntryChar c = true := by
  rw [bound?] at h
  split at h
  · next hempty => simp [List.isEmpty_iff.mp hempty]
  · obtain ⟨i, hi, -⟩ := Option.map_eq_some_iff.mp h
    exact isEntryChar_of_readInteger? hi

/-- What is blank off the ends of a text of such characters is one of them. -/
theorem isEntryChar_of_trim {s : List Char} (h : ∀ c ∈ trim s, isEntryChar c = true) :
    ∀ c ∈ s, isEntryChar c = true := by
  intro c hc
  rcases mem_trim_or_isBlank hc with hmem | hblank
  · exact h c hmem
  · simp [isEntryChar, hblank]

/-- A text is one of such characters if its separator and the trimmed pieces between are. -/
theorem isEntryChar_of_pieces {separator s : List Char} (hs : separator ≠ [])
    (hseparator : ∀ c ∈ separator, isEntryChar c = true)
    (hpieces : ∀ piece ∈ splitOn separator s, ∀ c ∈ piece, isEntryChar c = true) :
    ∀ c ∈ s, isEntryChar c = true := by
  intro c hc
  rcases mem_separator_or_piece hs hc with hmem | ⟨piece, hpiece, hmem⟩
  · exact hseparator c hmem
  · exact hpieces piece hpiece c hmem

theorem isEntryChar_of_entry? {part : List Char} {e : IndexEntry} (h : entry? part = some e) :
    ∀ c ∈ part, isEntryChar c = true := by
  refine isEntryChar_of_trim ?_
  rw [ entry?] at h
  split at h
  · refine isEntryChar_of_pieces (List.cons_ne_nil ':' []) (List.forall_mem_singleton.mpr rfl)
      fun piece hpiece => ?_
    have hmem : trim piece ∈ (splitOn [':'] (trim part)).map trim := List.mem_map_of_mem hpiece
    refine isEntryChar_of_trim ?_
    split at h
    · next first last hparts =>
      obtain ⟨a, ha, b, hb, -⟩ := by simpa [Option.bind_eq_some_iff] using h
      rw [hparts, List.mem_pair] at hmem
      rcases hmem with heq | heq
      · exact heq ▸ isEntryChar_of_bound? ha
      · exact heq ▸ isEntryChar_of_bound? hb
    · next first last step hparts =>
      obtain ⟨a, ha, b, hb, k, hk, -⟩ := by simpa [Option.bind_eq_some_iff] using h
      rw [hparts, List.mem_cons, List.mem_pair] at hmem
      rcases hmem with heq | heq | heq
      · exact heq ▸ isEntryChar_of_bound? ha
      · exact heq ▸ isEntryChar_of_bound? hb
      · exact heq ▸ isEntryChar_of_bound? hk
    · cases h
  · obtain ⟨i, hi, -⟩ := Option.map_eq_some_iff.mp h
    exact isEntryChar_of_readInteger? hi

theorem exists_of_mem_of_mapM {α β : Type} {f : α → Option β} {l : List α} {r : List β} {a : α}
    (h : l.mapM f = some r) (ha : a ∈ l) : ∃ b, f a = some b := by
  induction l generalizing r with
  | nil => cases ha
  | cons a' l ih =>
    rw [List.mapM_cons] at h
    obtain ⟨b, hb, r', hr', -⟩ := by simpa [Option.bind_eq_some_iff] using h
    rcases List.mem_cons.mp ha with rfl | ha
    · exact ⟨b, hb⟩
    · exact ih hr' ha

theorem exists_of_mem_mapM {α β : Type} {f : α → Option β} {l : List α} {r : List β} {b : β}
    (h : l.mapM f = some r) (hb : b ∈ r) : ∃ a ∈ l, f a = some b := by
  induction l generalizing r with
  | nil =>
    cases h
    cases hb
  | cons a l ih =>
    rw [List.mapM_cons] at h
    obtain ⟨b', hb', r', hr', rfl⟩ := by simpa [Option.bind_eq_some_iff] using h
    rcases List.mem_cons.mp hb with rfl | hb
    · exact ⟨a, List.mem_cons_self, hb'⟩
    · obtain ⟨a', ha', hfa⟩ := ih hr' hb
      exact ⟨a', List.mem_cons_of_mem a ha', hfa⟩

theorem isEntryChar_of_entries {body : List Char} {entries : List IndexEntry}
    (h : (splitOn [','] body).mapM entry? = some entries) : ∀ c ∈ body, isEntryChar c = true := by
  refine isEntryChar_of_pieces (List.cons_ne_nil ',' []) (List.forall_mem_singleton.mpr rfl)
    fun piece hpiece => ?_
  obtain ⟨e, he⟩ := exists_of_mem_of_mapM h hpiece
  exact isEntryChar_of_entry? he

variable {content : List Char} {set : IndexSet}

/-- **What is written in brackets** are the characters of entries, after an exclamation mark or
without one. -/
theorem of_ofBracket? (h : ofBracket? content = some set) :
    (∀ c ∈ content, isEntryChar c = true) ∨
    ∃ before rest, content = before ++ '!' :: rest ∧ (∀ c ∈ before, isBlank c = true) ∧
      ∀ c ∈ rest, isEntryChar c = true := by
  rw [ofBracket?] at h
  split at h
  rename_i exclude body hbody
  split at h
  · cases h
  obtain ⟨entries, hentries, -⟩ := Option.map_eq_some_iff.mp h
  have hchars := isEntryChar_of_entries hentries
  split at hbody
  · next rest hcontent =>
    obtain ⟨-, rfl⟩ := by simpa using hbody
    obtain ⟨before, after, hbefore, hafter, heq⟩ := exists_eq_append_trim content
    refine .inr ⟨before, rest ++ after, by rw [heq, hcontent, List.cons_append], hbefore, ?_⟩
    intro c hc
    rcases List.mem_append.mp hc with hc | hc
    · exact isEntryChar_of_trim hchars c hc
    · simp [isEntryChar, hafter c hc]
  · obtain ⟨-, rfl⟩ := by simpa using hbody
    exact .inl (isEntryChar_of_trim hchars)

theorem ne_of_isEntryChar {c d : Char} (hc : isEntryChar c = true) (hd : isEntryChar d = false) :
    c ≠ d := by
  rintro rfl
  rw [hc] at hd
  cases hd

/-- No bracket is written in brackets. -/
theorem not_mem_of_ofBracket? {d : Char} (h : ofBracket? content = some set)
    (hd : isEntryChar d = false) (hmark : d ≠ '!') : d ∉ content := by
  intro hmem
  rcases of_ofBracket? h with hall | ⟨before, rest, rfl, hbefore, hrest⟩
  · exact ne_of_isEntryChar (hall d hmem) hd rfl
  · rcases List.mem_append.mp hmem with hmem | hmem
    · have hblank : isEntryChar d = true := by simp [isEntryChar, hbefore d hmem]
      exact ne_of_isEntryChar hblank hd rfl
    · rcases List.mem_cons.mp hmem with heq | hmem
      · exact hmark heq
      · exact ne_of_isEntryChar (hrest d hmem) hd rfl

theorem isDigit_or_of_isInteger {s : List Char} (h : isInteger s = true) :
    ∀ c ∈ s, isDigit c = true ∨ c = '-' := by
  intro c hc
  unfold isInteger at h
  have hall := (Bool.and_eq_true_iff.mp h).2
  split at hall
  · rcases List.mem_cons.mp hc with rfl | hc
    · exact .inr rfl
    · exact .inl (List.all_eq_true.mp hall c hc)
  · exact .inl (List.all_eq_true.mp hall c hc)

end IndexSet

/-! ### The set at the end -/

variable {step body content list : List Char} {mark c : Char} {set : IndexSet}

/-- **A set in brackets** is split off where the bracket opens, whatever stands before it. -/
theorem splitIndexSuffix_bracket (h : IndexSet.ofBracket? content = some set) (body : List Char) :
    splitIndexSuffix (body ++ '[' :: (content ++ [']'])) = (trim body, some set) := by
  have hbody : body = body.takeWhile isBlank ++ trimStart body :=
    (List.takeWhile_append_dropWhile).symm
  have htrim : trim (body ++ '[' :: (content ++ [']'])) =
      trimStart body ++ '[' :: (content ++ [']']) := by
    have hblank : ∀ c ∈ body.takeWhile isBlank, isBlank c = true := fun c hc =>
      List.mem_takeWhile_imp hc
    rw [hbody, List.append_assoc, trim_append_of_blank hblank, ← hbody]
    cases hstart : trimStart body with
    | nil => exact trim_cons_append (by decide) (by decide) content
    | cons c r =>
      have hc : isBlank c = false := by
        have htwice : trimStart (c :: r) = c :: r := hstart ▸ List.dropWhile_idempotent isBlank body
        have := List.dropWhile_eq_self_iff.mp htwice (by simp)
        simpa using this
      have heq : c :: r ++ '[' :: (content ++ [']']) = c :: (r ++ '[' :: content ++ [']']) := by
        simp
      rw [heq, trim_cons_append hc (by decide)]
  have hopen : lastOf? (· = '[') (trimStart body ++ '[' :: (content ++ [']'])) =
      some (trimStart body, '[', content ++ [']']) := by
    refine lastOf?_append _ (by simp) fun d hd => ?_
    have hne : d ≠ '[' := by
      rintro rfl
      rcases List.mem_append.mp hd with hd | hd
      · exact IndexSet.not_mem_of_ofBracket? h (by decide) (by decide) hd
      · exact absurd (List.mem_singleton.mp hd) (by decide)
    simpa using hne
  have hlast : (trimStart body ++ '[' :: (content ++ [']'])).getLast? = some ']' := by
    rw [← List.cons_append, ← List.append_assoc, List.getLast?_concat]
  rw [splitIndexSuffix, htrim, hlast, hopen]
  dsimp only
  rw [List.dropLast_concat, h]
  rfl

theorem splitIndexSuffix_bracketed (hc : isBlank c = false)
    (h : IndexSet.ofBracket? content = some set) :
    splitIndexSuffix (c :: body ++ '[' :: (content ++ [']'])) =
      (trimEnd (c :: body), some set) := by
  have hstart : trimStart (c :: body) = c :: body := List.dropWhile_cons_of_neg (by simp [hc])
  rw [splitIndexSuffix_bracket h, trim, hstart]

/-- **A list after a mark** is split off if it is one of integers, and something stands before the
mark. -/
theorem splitIndexSuffix_mark (htrim : trim (body ++ mark :: list) = body ++ mark :: list)
    (hlast : (body ++ mark :: list).getLast? ≠ some ']') (hmark : mark = '.' ∨ mark = '!')
    (hlist : ∀ d ∈ list, d ≠ '.' ∧ d ≠ '!') :
    splitIndexSuffix (body ++ mark :: list) =
      if !body.isEmpty && (splitOn [':'] list).all IndexSet.isInteger then
        (IndexSet.ofList? mark list).elim (body ++ mark :: list, none) fun set => (body, some set)
      else (body ++ mark :: list, none) := by
  have hopen : lastOf? (fun d => d = '.' || d = '!') (body ++ mark :: list) =
      some (body, mark, list) :=
    lastOf?_append body (by simpa using hmark) (by simpa using hlist)
  rw [splitIndexSuffix, htrim]
  split
  · next h => exact absurd h hlast
  · rw [hopen]
    dsimp only
    split
    · cases IndexSet.ofList? mark list <;> rfl
    · rfl

/-- Off a step without a bracket at its end nothing is split, or what follows its last point or
exclamation mark, which then are integers. -/
theorem splitIndexSuffix_marked (htrim : trim (body ++ mark :: list) = body ++ mark :: list)
    (hlast : (body ++ mark :: list).getLast? ≠ some ']') (hmark : mark = '.' ∨ mark = '!')
    (hlist : ∀ d ∈ list, d ≠ '.' ∧ d ≠ '!') :
    splitIndexSuffix (body ++ mark :: list) = (body ++ mark :: list, none) ∨
    (splitOn [':'] list).all IndexSet.isInteger = true ∧
      (splitIndexSuffix (body ++ mark :: list)).1 = body := by
  rw [splitIndexSuffix_mark htrim hlast hmark hlist]
  split
  · next hall =>
    cases IndexSet.ofList? mark list with
    | none => exact .inl rfl
    | some set => exact .inr ⟨(Bool.and_eq_true_iff.mp hall).2, rfl⟩
  · exact .inl rfl

end Scrape.Rule
