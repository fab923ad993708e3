import Scrape.Proofs.Rule.Suffix
import Scrape.Proofs.Rule.Walk
import Scrape.Proofs.Text.Integer

/-!
# Rule — Appended

An index set that is written after a step.  The texts of entries are joined by commas, those of the
indices of a list by colons (`Joined`); blanks may stand around entries and around the bounds of a
range, of which either may be left out.  Every set with an entry can be written (`exists_writesSet`).
What is written in brackets is read as the set it is written for (`ofBracket?_of_writesSet`), and so
is a list of indices (`ofList?_of_joined`).

Main statement (`splitIndexSuffix_appended`): a step that ends in a set in brackets is split into what
stands before and the set, and so is one that ends in a list of indices, if what stands before is not
empty and begins with no blank.
-/

namespace Scrape.Rule

open Scrape.Text (IsNumeral WritesInteger exists_trimEnd_eq_append_trim isBlank isBlank_of_isDigit
  isDigit map_trim_splitOn_trim mem_trim_or_isBlank readInteger? splitOn splitOn_append
  splitOn_of_not_mem trim trimEnd trim_append trim_append_blank trim_append_of_blank
  trim_cons_append trim_of_forall trim_trim writesInteger_decimalInt)

/-! ### Texts joined by a separator -/

/-- Texts that are written for values, one at least, joined by a separator. -/
inductive Joined {α : Type} (Writes : α → List Char → Prop) (separator : Char) :
    List α → List Char → Prop where
  | one {a : α} {s : List Char} (h : Writes a s) : Joined Writes separator [a] s
  | more {a : α} {as : List α} {s t : List Char} (h : Writes a s)
      (hrest : Joined Writes separator as t) : Joined Writes separator (a :: as) (s ++ separator :: t)

namespace Joined

variable {α β : Type} {Writes : α → List Char → Prop} {separator d : Char} {as : List α}
  {s : List Char}

/-- Joined texts are read one by one, if the separator is in none of them. -/
theorem mapM_splitOn (h : Joined Writes separator as s) {read : List Char → Option β} (value : α → β)
    (hseparator : ∀ a t, Writes a t → separator ∉ t)
    (hread : ∀ a t, Writes a t → read t = some (value a)) :
    (splitOn [separator] s).mapM read = some (as.map value) := by
  induction h with
  | one h => rw [splitOn_of_not_mem (hseparator _ _ h), List.mapM_cons, hread _ _ h]; rfl
  | @more a as s t h _ ih =>
    rw [splitOn_append (hseparator a s h), List.mapM_cons, hread a s h, ih]
    rfl

theorem all_splitOn (h : Joined Writes separator as s) {p : List Char → Bool}
    (hseparator : ∀ a t, Writes a t → separator ∉ t) (hp : ∀ a t, Writes a t → p t = true) :
    (splitOn [separator] s).all p = true := by
  induction h with
  | one h => simp [splitOn_of_not_mem (hseparator _ _ h), hp _ _ h]
  | @more a as s t h _ ih =>
    rw [splitOn_append (hseparator a s h), List.all_cons, hp a s h, ih]
    rfl

theorem not_mem (h : Joined Writes separator as s) (hd : d ≠ separator)
    (htexts : ∀ a t, Writes a t → d ∉ t) : d ∉ s := by
  induction h with
  | one h => exact htexts _ _ h
  | @more a as s t h _ ih => simp [htexts a s h, hd, ih]

/-- Joined texts end as the last of them does. -/
theorem exists_eq_concat (h : Joined Writes separator as s) {p : Char → Prop}
    (htexts : ∀ a t, Writes a t → ∃ r c, t = r ++ [c] ∧ p c) : ∃ r c, s = r ++ [c] ∧ p c := by
  induction h with
  | one h => exact htexts _ _ h
  | @more a as s t _ _ ih =>
    obtain ⟨r, c, rfl, hc⟩ := ih
    exact ⟨s ++ separator :: r, c, by simp, hc⟩

theorem exists_joined (hne : as ≠ []) (h : ∀ a ∈ as, ∃ t, Writes a t) :
    ∃ s, Joined Writes separator as s := by
  induction as with
  | nil => exact absurd rfl hne
  | cons a as ih =>
    rw [List.forall_mem_cons] at h
    obtain ⟨⟨t, ht⟩, hrest⟩ := h
    cases as with
    | nil => exact ⟨t, .one ht⟩
    | cons b as =>
      obtain ⟨s, hs⟩ := ih (List.cons_ne_nil b as) hrest
      exact ⟨t ++ separator :: s, .more ht hs⟩

end Joined

namespace IndexSet

/-! ### How a set is written -/

/-- The text with blanks before and after it, if any. -/
def Padded (inner s : List Char) : Prop :=
  ∃ before after, (∀ c ∈ before, isBlank c = true) ∧ (∀ c ∈ after, isBlank c = true) ∧
    s = before ++ (inner ++ after)

/-- The text is written for a bound of a range, which may be left out. -/
inductive WritesBound : Option Int → List Char → Prop where
  | absent {s : List Char} (hs : Padded [] s) : WritesBound none s
  | present {i : Int} {inner s : List Char} (hinner : WritesInteger i inner) (hs : Padded inner s) :
      WritesBound (some i) s

/-- The text is written for an entry: for an index, or for a range with its step or with the step
one, which may be left out. -/
inductive WritesEntry : IndexEntry → List Char → Prop where
  | single {i : Int} {s : List Char} (h : WritesBound (some i) s) : WritesEntry (.single i) s
  | range {first last : Option Int} {step : Int} {a b c : List Char} (ha : WritesBound first a)
      (hb : WritesBound last b) (hc : WritesBound (some step) c) :
      WritesEntry (.range first last step) (a ++ ':' :: (b ++ ':' :: c))
  | unitRange {first last : Option Int} {a b : List Char} (ha : WritesBound first a)
      (hb : WritesBound last b) : WritesEntry (.range first last 1) (a ++ ':' :: b)

/-- The text is written in brackets for a set: its entries, after an exclamation mark if they are
left out. -/
inductive WritesSet : IndexSet → List Char → Prop where
  | inclusion {entries : List IndexEntry} {s : List Char} (h : Joined WritesEntry ',' entries s) :
      WritesSet ⟨false, entries⟩ s
  | exclusion {entries : List IndexEntry} {blanks s : List Char}
      (hblanks : ∀ c ∈ blanks, isBlank c = true) (h : Joined WritesEntry ',' entries s) :
      WritesSet ⟨true, entries⟩ (blanks ++ '!' :: s)

variable {d : Char} {s content : List Char}

/-! ### Every set can be written -/

theorem padded_self (s : List Char) : Padded s s := ⟨[], [], by simp, by simp, by simp⟩

theorem writesBound_self {i : Int} (h : WritesInteger i s) : WritesBound (some i) s :=
  .present h (padded_self s)

theorem exists_writesBound {b : Option Int} (h : ∀ i ∈ b, Text.IsInt64 i) :
    ∃ s, WritesBound b s := by
  cases b with
  | none => exact ⟨[], .absent (padded_self [])⟩
  | some i => exact ⟨_, writesBound_self (writesInteger_decimalInt (h i rfl))⟩

theorem exists_writesEntry {e : IndexEntry} (h : e.IsInt64) : ∃ s, WritesEntry e s := by
  cases e with
  | single i => exact ⟨_, .single (writesBound_self (writesInteger_decimalInt h))⟩
  | range first last step =>
    obtain ⟨a, ha⟩ := exists_writesBound h.1
    obtain ⟨b, hb⟩ := exists_writesBound h.2.1
    exact ⟨_, .range ha hb (writesBound_self (writesInteger_decimalInt h.2.2))⟩

/-- **Every set** with an entry, whose integers are of 64 bits, can be written in brackets. -/
theorem exists_writesSet {set : IndexSet} (hne : set.entries ≠ [])
    (h : ∀ e ∈ set.entries, e.IsInt64) : ∃ content, WritesSet set content := by
  obtain ⟨s, hs⟩ : ∃ s, Joined WritesEntry ',' set.entries s :=
    Joined.exists_joined hne fun e he => exists_writesEntry (h e he)
  obtain ⟨exclude, entries⟩ := set
  cases exclude with
  | false => exact ⟨s, .inclusion hs⟩
  | true => exact ⟨[] ++ '!' :: s, .exclusion (by simp) hs⟩

/-! ### Bounds and entries -/

theorem trim_of_padded {inner : List Char} (h : Padded inner s) : trim s = trim inner := by
  obtain ⟨before, after, hbefore, hafter, rfl⟩ := h
  rw [trim_append_of_blank hbefore, trim_append_blank hafter]

theorem not_mem_of_padded {inner : List Char} (h : Padded inner s) (hd : isBlank d = false)
    (hinner : d ∉ inner) : d ∉ s := by
  obtain ⟨before, after, hbefore, hafter, rfl⟩ := h
  have hnot {blanks : List Char} (hblanks : ∀ c ∈ blanks, isBlank c = true) : d ∉ blanks :=
    fun hmem => by
      rw [hblanks d hmem] at hd
      cases hd
  simp [hinner, hnot hbefore, hnot hafter]

theorem trim_of_writesInteger {i : Int} (h : WritesInteger i s) : trim s = s :=
  trim_of_forall h.isNumeral.isBlank_eq_false

namespace WritesBound

variable {b : Option Int} {i : Int}

theorem bound?_trim (h : WritesBound b s) : bound? (trim s) = some b := by
  cases h with
  | absent hs =>
    rw [trim_of_padded hs]
    rfl
  | present hinner hs =>
    rw [trim_of_padded hs, trim_of_writesInteger hinner, bound?,
      if_neg (by simpa using hinner.isNumeral.ne_nil), hinner.readInteger?_eq]
    rfl

theorem readInteger?_trim (h : WritesBound (some i) s) : readInteger? (trim s) = some i := by
  cases h with
  | present hinner hs =>
    rw [trim_of_padded hs, trim_of_writesInteger hinner, hinner.readInteger?_eq]

theorem not_mem (h : WritesBound b s) (hblank : isBlank d = false) (hdigit : isDigit d = false)
    (hminus : d ≠ '-') : d ∉ s := by
  cases h with
  | absent hs => exact not_mem_of_padded hs hblank List.not_mem_nil
  | present hinner hs =>
    exact not_mem_of_padded hs hblank (hinner.isNumeral.not_mem hdigit hminus)

theorem colon_not_mem (h : WritesBound b s) : ':' ∉ s := h.not_mem (by decide) (by decide) (by decide)

end WritesBound

theorem entry?_trim (s : List Char) : entry? (trim s) = entry? s := by
  unfold entry?
  rw [trim_trim]

section

variable {x y z : List Char}

theorem entry?_of_pair (h : ':' ∈ s) (hparts : (splitOn [':'] s).map trim = [x, y]) :
    entry? s = (bound? x).bind fun first => (bound? y).bind fun last =>
      some (.range first last 1) := by
  have hmem : ':' ∈ trim s := (mem_trim_or_isBlank h).resolve_right (by decide)
  unfold entry?
  rw [if_pos (by simpa using hmem), map_trim_splitOn_trim (by decide), hparts]
  rfl

theorem entry?_of_triple (h : ':' ∈ s) (hparts : (splitOn [':'] s).map trim = [x, y, z]) :
    entry? s = (bound? x).bind fun first => (bound? y).bind fun last => (bound? z).bind fun step =>
      some (.range first last (step.getD 1)) := by
  have hmem : ':' ∈ trim s := (mem_trim_or_isBlank h).resolve_right (by decide)
  unfold entry?
  rw [if_pos (by simpa using hmem), map_trim_splitOn_trim (by decide), hparts]
  rfl

end

namespace WritesEntry

variable {e : IndexEntry}

/-- **What is written for an entry** is read as this entry. -/
theorem entry?_eq (h : WritesEntry e s) : entry? s = some e := by
  cases h with
  | single h =>
    have hcolon : ':' ∉ trim s := fun hmem => h.colon_not_mem ((Text.infix_trim s).subset hmem)
    unfold entry?
    rw [if_neg (by simpa using hcolon), h.readInteger?_trim]
    rfl
  | @range _ _ _ a b c ha hb hc =>
    have hparts : (splitOn [':'] (a ++ ':' :: (b ++ ':' :: c))).map trim =
        [trim a, trim b, trim c] := by
      rw [splitOn_append ha.colon_not_mem, splitOn_append hb.colon_not_mem,
        splitOn_of_not_mem hc.colon_not_mem]
      rfl
    rw [entry?_of_triple (by simp) hparts, ha.bound?_trim, hb.bound?_trim, hc.bound?_trim]
    rfl
  | @unitRange _ _ a b ha hb =>
    have hparts : (splitOn [':'] (a ++ ':' :: b)).map trim = [trim a, trim b] := by
      rw [splitOn_append ha.colon_not_mem, splitOn_of_not_mem hb.colon_not_mem]
      rfl
    rw [entry?_of_pair (by simp) hparts, ha.bound?_trim, hb.bound?_trim]
    rfl

theorem comma_not_mem (h : WritesEntry e s) : ',' ∉ s := by
  have hbound {b : Option Int} {t : List Char} (h : WritesBound b t) : ',' ∉ t :=
    h.not_mem (by decide) (by decide) (by decide)
  cases h with
  | single h => exact hbound h
  | range ha hb hc => simp [hbound ha, hbound hb, hbound hc]
  | unitRange ha hb => simp [hbound ha, hbound hb]

end WritesEntry

/-! ### Sets and lists -/

section

variable {entries : List IndexEntry} {set : IndexSet}

theorem mapM_entry?_splitOn (h : Joined WritesEntry ',' entries s) :
    (splitOn [','] s).mapM entry? = some entries := by
  have hread := h.mapM_splitOn id (fun _ _ he => he.comma_not_mem)
    fun _ _ he => he.entry?_eq
  rwa [List.map_id] at hread

/-- Entries are read from a trimmed text as they are from the text. -/
theorem mapM_entry?_splitOn_trim (h : Joined WritesEntry ',' entries s) :
    (splitOn [','] (trim s)).mapM entry? = some entries := by
  have htrim : entry? ∘ trim = entry? := funext entry?_trim
  rw [← mapM_entry?_splitOn h, ← htrim, ← List.mapM_map, ← List.mapM_map,
    map_trim_splitOn_trim (by decide)]

theorem trim_ne_nil_of_joined (h : Joined WritesEntry ',' entries s) : trim s ≠ [] := by
  intro hnil
  have hread := mapM_entry?_splitOn_trim h
  rw [hnil, splitOn_of_not_mem List.not_mem_nil] at hread
  cases hread

/-- **What is written in brackets** is read as the set it is written for. -/
theorem ofBracket?_of_writesSet (h : WritesSet set content) : ofBracket? content = some set := by
  cases h with
  | inclusion h =>
    have hmark (r : List Char) : trim content ≠ '!' :: r := fun heq => by
      have hmem : '!' ∈ content :=
        (Text.infix_trim content).subset (heq ▸ List.mem_cons_self)
      exact absurd (isEntryChar_of_entries (mapM_entry?_splitOn h) '!' hmem) (by decide)
    unfold ofBracket?
    dsimp only
    split
    · exact absurd ‹_› (hmark _)
    · rw [if_neg (by simpa using trim_ne_nil_of_joined h), mapM_entry?_splitOn_trim h]
      rfl
  | @exclusion _ blanks s hblanks h =>
    have hmark : trim (blanks ++ '!' :: s) = '!' :: trimEnd s := by
      rw [trim_append_of_blank hblanks]
      exact trim_append (s := ['!']) (by decide) (List.cons_ne_nil _ _) s
    have hrest : trim (trimEnd s) = trim s := by
      obtain ⟨before, hbefore, hs⟩ := exists_trimEnd_eq_append_trim s
      rw [hs, trim_append_of_blank hbefore, trim_trim]
    unfold ofBracket?
    simp only [hmark, hrest]
    rw [if_neg (by simpa using trim_ne_nil_of_joined h), mapM_entry?_splitOn_trim h]
    rfl

variable {indices : List Int} {mark : Char}

theorem isInteger_of_isNumeral {i : Int} (h : IsNumeral i s) : isInteger s = true := by
  cases h with
  | plain hne hdigits =>
    obtain ⟨c, r, rfl⟩ := List.exists_cons_of_ne_nil hne
    have hc : c ≠ '-' := by
      rintro rfl
      exact absurd (hdigits '-' List.mem_cons_self) (by decide)
    unfold isInteger
    split
    · next heq => exact absurd (List.cons.inj heq).1 hc
    · simpa using hdigits
  | minus hne hdigits => simpa [isInteger, hne] using hdigits

theorem colon_not_mem_of_writesInteger {i : Int} (h : WritesInteger i s) : ':' ∉ s :=
  h.isNumeral.not_mem (by decide) (by decide)

/-- **A list of indices** is read as the set of these indices. -/
theorem ofList?_of_joined (h : Joined WritesInteger ':' indices s) (mark : Char) :
    ofList? mark s = some ⟨mark = '!', indices.map .single⟩ := by
  have hread (i : Int) (t : List Char) (ht : WritesInteger i t) :
      (readInteger? (trim t)).map IndexEntry.single = some (.single i) := by
    rw [trim_of_writesInteger ht, ht.readInteger?_eq, Option.map_some]
  rw [ofList?, h.mapM_splitOn _ (fun _ _ => colon_not_mem_of_writesInteger) hread, Option.map_some]

end

end IndexSet

/-! ### The set at the end -/

variable {set : IndexSet} {content body list : List Char} {indices : List Int} {mark : Char}

/-- A list of indices is split off with its mark, if what stands before begins with no blank. -/
theorem splitIndexSuffix_joined {c : Char} (hc : isBlank c = false) (hmark : mark = '.' ∨ mark = '!')
    (h : Joined WritesInteger ':' indices list) (body : List Char) :
    splitIndexSuffix (c :: body ++ mark :: list) =
      (c :: body, some ⟨mark = '!', indices.map .single⟩) := by
  have hlast (i : Int) (t : List Char) (ht : WritesInteger i t) :
      ∃ r d, t = r ++ [d] ∧ isDigit d = true :=
    ⟨_, _, (List.dropLast_append_getLast ht.isNumeral.ne_nil).symm, ht.isNumeral.isDigit_getLast⟩
  obtain ⟨r, d, rfl, hd⟩ := h.exists_eq_concat hlast
  have hdigit {x : Char} (hx : isDigit x = false) : d ≠ x := by
    rintro rfl
    rw [hd] at hx
    cases hx
  have hnot {x : Char} (hx : isDigit x = false) (hminus : x ≠ '-') (hcolon : x ≠ ':') :
      x ∉ r ++ [d] :=
    h.not_mem hcolon fun _ _ ht => ht.isNumeral.not_mem hx hminus
  have htrim : trim (c :: body ++ mark :: (r ++ [d])) = c :: body ++ mark :: (r ++ [d]) := by
    have heq : c :: body ++ mark :: (r ++ [d]) = c :: (body ++ mark :: r ++ [d]) := by simp
    rw [heq, trim_cons_append hc (isBlank_of_isDigit hd)]
  have hend : (c :: body ++ mark :: (r ++ [d])).getLast? ≠ some ']' := by
    rw [← List.cons_append, ← List.append_assoc, List.getLast?_concat]
    simpa using hdigit (by decide)
  rw [splitIndexSuffix_mark htrim hend hmark fun x hx =>
    ⟨fun heq => hnot (by decide) (by decide) (by decide) (heq ▸ hx),
      fun heq => hnot (by decide) (by decide) (by decide) (heq ▸ hx)⟩]
  have hall := h.all_splitOn (fun _ _ => IndexSet.colon_not_mem_of_writesInteger)
    fun _ _ ht => IndexSet.isInteger_of_isNumeral ht.isNumeral
  rw [hall, IndexSet.ofList?_of_joined h]
  rfl

/-- **A set that is written after a step** is split off it: in brackets from whatever stands before,
which is trimmed, and as a list of indices after a point or an exclamation mark from what is not empty
and begins with no blank. -/
theorem splitIndexSuffix_appended :
    (∀ set content body, IndexSet.WritesSet set content →
      splitIndexSuffix (body ++ '[' :: (content ++ [']'])) = (trim body, some set)) ∧
    ∀ mark indices list body, mark = '.' ∨ mark = '!' → Joined WritesInteger ':' indices list →
      body ≠ [] → (∀ c ∈ body.head?, isBlank c = false) →
      splitIndexSuffix (body ++ mark :: list) =
        (body, some ⟨mark = '!', indices.map .single⟩) := by
  refine ⟨fun set content body h =>
    splitIndexSuffix_bracket (IndexSet.ofBracket?_of_writesSet h) body, ?_⟩
  intro mark indices list body hmark h hne hhead
  obtain ⟨c, r, rfl⟩ := List.exists_cons_of_ne_nil hne
  exact splitIndexSuffix_joined (hhead c rfl) hmark h r

/-- An exclusion in brackets, with blanks, bounds left out and a negative step, after a step that
holds brackets and points itself; and a list of indices after such a step. -/
theorem splitIndexSuffix_paddedSet :
    splitIndexSuffix " a.1[0] [ ! -1 , 2: :-3]".toList =
      ("a.1[0]".toList, some ⟨true, [.single (-1), .range (some 2) none (-3)]⟩) ∧
    splitIndexSuffix "a!b[1].0:-2".toList =
      ("a!b[1]".toList, some ⟨false, [.single 0, .single (-2)]⟩) := by
  obtain ⟨hset, hlist⟩ := splitIndexSuffix_appended
  have hminusOne : WritesInteger (-1) "-1".toList := writesInteger_decimalInt (by decide)
  have htwo : WritesInteger 2 "2".toList := writesInteger_decimalInt (by decide)
  have hminusThree : WritesInteger (-3) "-3".toList := writesInteger_decimalInt (by decide)
  have hzero : WritesInteger 0 "0".toList := writesInteger_decimalInt (by decide)
  have hminusTwo : WritesInteger (-2) "-2".toList := writesInteger_decimalInt (by decide)
  have hblank : ∀ c ∈ " ".toList, isBlank c = true := List.all_eq_true.mp (by decide)
  have hsingle : IndexSet.WritesEntry (.single (-1)) " -1 ".toList :=
    .single (.present hminusOne ⟨" ".toList, " ".toList, hblank, hblank, rfl⟩)
  have hrange : IndexSet.WritesEntry (.range (some 2) none (-3)) " 2: :-3".toList :=
    .range (.present htwo ⟨" ".toList, [], hblank, by simp, rfl⟩)
      (.absent ⟨" ".toList, [], hblank, by simp, rfl⟩) (IndexSet.writesBound_self hminusThree)
  exact ⟨hset _ _ " a.1[0] ".toList (.exclusion hblank (.more hsingle (.one hrange))),
    hlist '.' [0, -2] "0:-2".toList "a!b[1]".toList (.inl rfl) (.more hzero (.one hminusTwo))
      (by decide) (by simp [isBlank])⟩

/-- A list of indices with nothing before it stays in the step, and so does a mark with no index
after it. -/
theorem splitIndexSuffix_bareList :
    (¬ ∀ mark indices list body, mark = '.' ∨ mark = '!' → Joined WritesInteger ':' indices list →
      (∀ c ∈ body.head?, isBlank c = false) →
      splitIndexSuffix (body ++ mark :: list) =
        (body, some ⟨mark = '!', indices.map .single⟩)) ∧
    splitIndexSuffix ".0".toList = (".0".toList, none) ∧
    splitIndexSuffix "a.".toList = ("a.".toList, none) := by
  refine ⟨fun h => ?_, by decide +kernel, by decide +kernel⟩
  have hzero : WritesInteger 0 "0".toList := writesInteger_decimalInt (by decide)
  have hsplit := h '.' [0] "0".toList [] (.inl rfl) (.one hzero) (by simp)
  exact absurd hsplit (by decide +kernel)

end Scrape.Rule
