import Scrape.Evaluate.Directive
import Scrape.Proofs.Json.Braced
import Scrape.Proofs.Rule.Split

/-!
# Evaluate — Pairs

What is put by fields in braces.  Fields that are no object are split at the commas that stand in no
quotes, and so every value comes out as it was written (`filterMap_pair?_split`).  Fields that are an
object come out as they were written if no value loses a comma.

Main statement (`pairs_braced_eq_iff`): when each field comes out as it was written.
-/

namespace Scrape.Evaluate

open Scrape.Json (IsKey Quotable Written braced quotedField)
open Scrape.Json.Loose (HoldsBareKey HoldsTrailingComma)
open Scrape.Rule (Scan marks split topLevel)
open Scrape.Text (cut? isBlank isWordChar trim trim_append_of_blank trim_cons_append trim_of_forall)

/-! ### Scanning a field -/

/-- What means nothing to a scan is at the top level. -/
theorem run_of_separates {s : List Char} (h : ∀ c ∈ s, ({} : Scan).separates c = true) :
    ({} : Scan).run s = {} ∧ topLevel {} s = s := by
  induction s with
  | nil => exact ⟨rfl, rfl⟩
  | cons c s ih =>
    rw [List.forall_mem_cons] at h
    obtain ⟨hrun, htop⟩ := ih h.2
    rw [Scan.run_cons, topLevel, if_pos h.1, Scan.start_step_of_separates h.1]
    exact ⟨hrun, by rw [htop]⟩

/-- What is in quotes is not at the top level. -/
theorem run_of_quotable (quote : Char) {s : List Char} (h : Quotable s) :
    ({ quote := some quote } : Scan).run s = { quote := some quote } ∧
      topLevel { quote := some quote } s = [] := by
  have hseparates : ∀ c, ({ quote := some quote } : Scan).separates c = false := fun c => by
    simp [Scan.separates]
  induction s with
  | nil => exact ⟨rfl, rfl⟩
  | cons c s ih =>
    obtain ⟨⟨hmarks, -⟩, hs⟩ := List.forall_mem_cons.mp h
    simp only [List.mem_cons, List.not_mem_nil, not_or, or_false] at hmarks
    have hstep : ({ quote := some quote } : Scan).step c = { quote := some quote } := by
      simp [Scan.step, hmarks]
    rw [Scan.run_cons, topLevel, hseparates, hstep]
    exact ih hs

theorem topLevel_append (st : Scan) (s t : List Char) :
    topLevel st (s ++ t) = topLevel st s ++ topLevel (st.run s) t := by
  induction s generalizing st with
  | nil => rfl
  | cons c s ih =>
    rw [List.cons_append, topLevel, topLevel, ih, Scan.run_cons]
    split <;> rfl

section

variable {quote : Char} {f : Written} {fields : List Written}

theorem separates_of_isWordChar {c : Char} (h : isWordChar c = true) :
    ({} : Scan).separates c = true := by
  have hmarks : ∀ m ∈ marks, isWordChar m = false := by
    simp only [marks, List.forall_mem_cons, List.not_mem_nil, false_implies, implies_true, and_true]
    decide
  have hc : c ∉ marks := fun hmem => by
    rw [hmarks c hmem] at h
    cases h
  simpa [Scan.separates, marks] using hc

/-- A field is closed, and what is at its top level is no comma. -/
theorem run_quotedField (hquote : quote = '"' ∨ quote = '\'') (hkey : IsKey f.1)
    (hvalue : Quotable f.2) {before : List Char} (hbefore : ∀ c ∈ before, c = ' ') :
    ({} : Scan).run (before ++ quotedField quote f) = {} ∧
      ∀ c ∈ topLevel {} (before ++ quotedField quote f), c ∉ [','] := by
  have hlead : ∀ c ∈ before ++ (f.1 ++ [':', ' ']),
      ({} : Scan).separates c = true ∧ c ≠ ',' := by
    intro c hc
    simp only [List.mem_append, List.mem_cons, List.not_mem_nil, or_false] at hc
    rcases hc with hc | hc | rfl | rfl
    · rw [hbefore c hc]
      decide
    · refine ⟨separates_of_isWordChar (hkey.word c hc), ?_⟩
      rintro rfl
      exact hkey.not_mem (by decide) hc
    · decide
    · decide
  obtain ⟨hleadrun, hleadtop⟩ := run_of_separates fun c hc => (hlead c hc).1
  obtain ⟨hvaluerun, hvaluetop⟩ := run_of_quotable quote hvalue
  have hopen : ({} : Scan).step quote = { quote := some quote } ∧
      ({} : Scan).separates quote = false := by
    rcases hquote with rfl | rfl
    all_goals decide
  have hclose : ({ quote := some quote } : Scan).step quote = {} := by
    rcases hquote with rfl | rfl
    all_goals decide
  have htext : before ++ quotedField quote f =
      before ++ (f.1 ++ [':', ' ']) ++ quote :: (f.2 ++ [quote]) := by
    simp [quotedField]
  constructor
  · rw [htext, Scan.run_append, hleadrun, Scan.run_cons, hopen.1, Scan.run_append, hvaluerun,
      Scan.run_cons, hclose]
    rfl
  · intro c hc
    rw [htext, topLevel_append, hleadtop, hleadrun, topLevel, hopen.1, hopen.2,
      if_neg Bool.false_ne_true, topLevel_append, hvaluetop, hvaluerun, topLevel,
      if_neg (by simp [Scan.separates]), topLevel, List.append_nil, List.append_nil] at hc
    simpa using (hlead c hc).2

/-! ### Fields that are no object -/

theorem trim_quotedField (hquote : quote = '"' ∨ quote = '\'') (hkey : IsKey f.1)
    {before : List Char} (hbefore : ∀ c ∈ before, isBlank c = true) :
    trim (before ++ quotedField quote f) = quotedField quote f := by
  obtain ⟨c, key, hc⟩ := List.exists_cons_of_ne_nil hkey.ne_nil
  have hblank : isBlank c = false := hkey.blank c (by rw [hc]; exact List.mem_cons_self)
  have hquoteblank : isBlank quote = false := by
    rcases hquote with rfl | rfl
    all_goals decide
  rw [trim_append_of_blank hbefore]
  simpa [quotedField, hc] using
    trim_cons_append hblank hquoteblank (key ++ ':' :: ' ' :: quote :: f.2)

/-- No quotes are taken off a text that holds none. -/
theorem dropWhile_of_quotable {s : List Char} (h : Quotable s) :
    s.dropWhile (fun c => decide (c = '"') || decide (c = '\'')) = s := by
  cases s with
  | nil => rfl
  | cons c s =>
    have hmarks := (h c List.mem_cons_self).1
    simp only [List.mem_cons, not_or] at hmarks
    simp [hmarks]

theorem unquoted_of_isKey {key : List Char} (hkey : IsKey key) : unquoted key = key := by
  have hreverse : Quotable key.reverse := hkey.quotable.of_subset (by simp)
  rw [unquoted, trim_of_forall hkey.blank, dropWhile_of_quotable hkey.quotable,
    dropWhile_of_quotable hreverse, List.reverse_reverse]

/-- The quotes around a value, and the blank before them, are taken off. -/
theorem unquoted_quoted (hquote : quote = '"' ∨ quote = '\'') {value : List Char}
    (hvalue : Quotable value) : unquoted (' ' :: quote :: (value ++ [quote])) = value := by
  have hblank : isBlank quote = false := by
    rcases hquote with rfl | rfl
    all_goals decide
  have hmark : (decide (quote = '"') || decide (quote = '\'')) = true := by simpa using hquote
  have hspace : ∀ c ∈ [' '], isBlank c = true := List.forall_mem_singleton.mpr (by decide)
  have htrim : trim (' ' :: quote :: (value ++ [quote])) = quote :: (value ++ [quote]) :=
    (trim_append_of_blank hspace _).trans (trim_cons_append hblank hblank value)
  have hreverse : Quotable value.reverse := hvalue.of_subset (by simp)
  rw [unquoted, htrim, List.dropWhile_cons, if_pos hmark]
  cases value with
  | nil => simp [hmark]
  | cons c value =>
    have hdrop : (c :: value ++ [quote]).dropWhile (fun c => decide (c = '"') || decide (c = '\'')) =
        c :: value ++ [quote] := by
      have hc := (hvalue c List.mem_cons_self).1
      simp only [List.mem_cons, not_or] at hc
      simp [hc]
    rw [hdrop, List.reverse_append, List.reverse_singleton, List.singleton_append,
      List.dropWhile_cons, if_pos hmark, dropWhile_of_quotable hreverse, List.reverse_reverse]

/-- **A field is read as it was written.** -/
theorem pair?_quotedField (hquote : quote = '"' ∨ quote = '\'') (hkey : IsKey f.1)
    (hvalue : Quotable f.2) : pair? (quotedField quote f) = some (String.ofList f.1, f.2) := by
  have hcolon : ':' ∉ f.1 := hkey.not_mem (by decide)
  have hcut : cut? [':'] (quotedField quote f) = some (f.1, ' ' :: quote :: (f.2 ++ [quote])) :=
    Text.cut?_append hcolon _
  rw [pair?, hcut]
  dsimp only
  rw [unquoted_of_isKey hkey, unquoted_quoted hquote hvalue,
    List.isEmpty_eq_false_iff.mpr hkey.ne_nil, if_neg Bool.false_ne_true]

/-- The end of a separator may be counted to the parts that it stands before. -/
theorem intercalate_append (sep lead p : List Char) (ps : List (List Char)) :
    (sep ++ lead).intercalate (p :: ps) = sep.intercalate (p :: ps.map (lead ++ ·)) := by
  induction ps generalizing p with
  | nil => simp
  | cons q ps ih =>
    have hmove : ∀ rest : List (List Char),
        sep.intercalate ((lead ++ q) :: rest) = lead ++ sep.intercalate (q :: rest) := by
      intro rest
      cases rest with
      | nil => simp
      | cons r rest => simp [List.intercalate_cons_cons]
    rw [List.map_cons, List.intercalate_cons_cons, List.intercalate_cons_cons, ih q, hmove]
    simp

/-- Fields are split where they were joined. -/
theorem split_quotedFields (hquote : quote = '"' ∨ quote = '\'') (hne : fields ≠ [])
    (hfields : ∀ f ∈ fields, IsKey f.1 ∧ Quotable f.2) :
    split [[',']] ([',', ' '].intercalate (fields.map (quotedField quote))) =
      fields.map (quotedField quote) := by
  obtain ⟨f, fs, rfl⟩ := List.exists_cons_of_ne_nil hne
  have hpart : ∀ p ∈ quotedField quote f :: (fs.map (quotedField quote)).map ([' '] ++ ·),
      ∃ before g, (∀ c ∈ before, c = ' ') ∧ g ∈ f :: fs ∧ p = before ++ quotedField quote g := by
    intro p hp
    rcases List.mem_cons.mp hp with rfl | hp
    · exact ⟨[], f, by simp, List.mem_cons_self, rfl⟩
    · obtain ⟨q, hq, rfl⟩ := List.mem_map.mp hp
      obtain ⟨g, hg, rfl⟩ := List.mem_map.mp hq
      exact ⟨[' '], g, by simp, List.mem_cons_of_mem f hg, rfl⟩
  have hcomma : ∀ c ∈ [','], c ∉ marks := List.forall_mem_singleton.mpr (by decide)
  obtain ⟨cut, hcut, hpieces⟩ := Rule.exists_cutting_intercalate (List.cons_ne_nil _ _) hcomma
    (List.cons_ne_nil _ _) fun p hp => by
      obtain ⟨before, g, hbefore, hg, rfl⟩ := hpart p hp
      obtain ⟨hkey, hvalue⟩ := hfields g hg
      exact run_quotedField hquote hkey hvalue hbefore
  have htrim : ∀ {before g}, (∀ c ∈ before, c = ' ') → g ∈ f :: fs →
      trim (before ++ quotedField quote g) = quotedField quote g := fun hbefore hg =>
    trim_quotedField hquote (hfields _ hg).1 fun c hc => by
      rw [hbefore c hc]
      decide
  have hsplit := hcut.split_eq_map fun p hp => by
    rw [hpieces] at hp
    obtain ⟨before, g, hbefore, hg, rfl⟩ := hpart p hp
    rw [htrim hbefore hg]
    simp [quotedField]
  have hrest : ((fs.map (quotedField quote)).map ([' '] ++ ·)).map trim =
      fs.map (quotedField quote) := by
    rw [List.map_map, List.map_map]
    exact List.map_congr_left fun g hg => htrim (by simp) (List.mem_cons_of_mem f hg)
  have hnone : ∀ c ∈ ([] : List Char), c = ' ' := by simp
  have hfirst : trim (quotedField quote f) = quotedField quote f :=
    htrim hnone (List.mem_cons_self (a := f) (l := fs))
  have htext : [',', ' '].intercalate ((f :: fs).map (quotedField quote)) = [','].intercalate
      (quotedField quote f :: (fs.map (quotedField quote)).map ([' '] ++ ·)) :=
    intercalate_append [','] [' '] (quotedField quote f) (fs.map (quotedField quote))
  rw [htext, hsplit, hpieces, List.map_cons, hrest, List.map_cons]
  exact congrArg (· :: _) hfirst

/-- Joined fields begin with a key and end in a quote. -/
theorem exists_eq_intercalate (quote : Char) (hne : fields ≠ []) (hkeys : ∀ f ∈ fields, IsKey f.1) :
    ∃ c middle, isWordChar c = true ∧
      [',', ' '].intercalate (fields.map (quotedField quote)) = c :: (middle ++ [quote]) := by
  obtain ⟨f, fs, rfl⟩ := List.exists_cons_of_ne_nil hne
  clear hne
  induction fs generalizing f with
  | nil =>
    have hkey := hkeys f List.mem_cons_self
    obtain ⟨c, key, hc⟩ := List.exists_cons_of_ne_nil hkey.ne_nil
    refine ⟨c, key ++ ':' :: ' ' :: quote :: f.2, hkey.word c (by rw [hc]; simp), ?_⟩
    simp [quotedField, hc]
  | cons g fs ih =>
    rw [List.forall_mem_cons] at hkeys
    obtain ⟨hkey, hkeys⟩ := hkeys
    obtain ⟨c, key, hc⟩ := List.exists_cons_of_ne_nil hkey.ne_nil
    obtain ⟨d, middle, -, hrest⟩ := ih g hkeys
    rw [List.map_cons] at hrest
    refine ⟨c, key ++ ':' :: ' ' :: quote :: (f.2 ++ quote :: ',' :: ' ' :: d :: middle),
      hkey.word c (by rw [hc]; simp), ?_⟩
    rw [List.map_cons, List.map_cons, List.intercalate_cons_cons, hrest]
    simp [quotedField, hc]

/-- **Fields in braces that are no object** come out as they were written. -/
theorem pairs_of_parse?_eq_none (hquote : quote = '"' ∨ quote = '\'') (hne : fields ≠ [])
    (hfields : ∀ f ∈ fields, IsKey f.1 ∧ Quotable f.2)
    (h : Json.Loose.parse? (braced (quotedField quote) fields) = none) :
    pairs (braced (quotedField quote) fields) = fields.map fun f => (String.ofList f.1, f.2) := by
  have hinside : (((trim (braced (quotedField quote) fields)).dropWhile
        fun c => decide (c = '\x7b')).reverse.dropWhile fun c => decide (c = '\x7d')).reverse =
      [',', ' '].intercalate (fields.map (quotedField quote)) := by
    obtain ⟨c, middle, hc, htext⟩ :=
      exists_eq_intercalate quote hne fun f hf => (hfields f hf).1
    have hopen : c ≠ '\x7b' := by
      rintro rfl
      exact absurd hc (by decide)
    have hclose : quote ≠ '\x7d' := by
      rcases hquote with rfl | rfl
      all_goals decide
    rw [braced, trim_cons_append (by decide) (by decide), htext]
    simp [hopen, hclose]
  have hpairs : ∀ f ∈ fields, pair? (quotedField quote f) = some (String.ofList f.1, f.2) :=
    fun f hf => pair?_quotedField hquote (hfields f hf).1 (hfields f hf).2
  rw [pairs, h]
  dsimp only
  rw [hinside, split_quotedFields hquote hne hfields, List.filterMap_map]
  exact (List.filterMap_congr hpairs).trans (congrFun List.filterMap_eq_map fields)

/-! ### Fields in braces -/

/-- **What is put by fields in braces** is what was written, if and only if a value holds a key
without quotes or none holds a comma before a closing bracket. -/
theorem pairs_braced_eq_iff (hquote : quote = '"' ∨ quote = '\'') (hne : fields ≠ [])
    (hfields : ∀ f ∈ fields, IsKey f.1 ∧ Quotable f.2) (hdistinct : (fields.map Prod.fst).Nodup) :
    pairs (braced (quotedField quote) fields) = (fields.map fun f => (String.ofList f.1, f.2)) ↔
      (∃ f ∈ fields, HoldsBareKey f.2) ∨ ∀ f ∈ fields, ¬ HoldsTrailingComma f.2 := by
  by_cases hholds : ∃ f ∈ fields, HoldsBareKey f.2
  · exact iff_of_true (pairs_of_parse?_eq_none hquote hne hfields
      (Json.Loose.parse?_braced_of_holdsBareKey hquote hfields hholds)) (.inl hholds)
  · have hnot : ∀ f ∈ fields, ¬ HoldsBareKey f.2 := fun f hf hkey => hholds ⟨f, hf, hkey⟩
    have hparse := Json.Loose.parse?_braced_of_not_holdsBareKey hquote hne hfields hdistinct hnot
    have hpairs : pairs (braced (quotedField quote) fields) =
        fields.map fun f => (String.ofList f.1, Json.Loose.dropCommas f.2) := by
      rw [pairs, hparse]
      simp [Written.entry, Json.output]
    rw [hpairs, List.map_inj_left, or_iff_right hholds]
    refine forall₂_congr fun f _ => ?_
    rw [Prod.mk.injEq, and_iff_right rfl, Json.Loose.dropCommas_eq_self_iff]

end

/-- Fields of which one holds commas, brackets and what looks like a key behind a brace. -/
def nestedFields : List Written :=
  [("a".toList, "x[1, 2]".toList), ("b".toList, "\x7bc: [d,]".toList)]

/-- The nested fields come out as they were written. -/
theorem pairs_nestedFields :
    (∀ f ∈ nestedFields, IsKey f.1 ∧ Quotable f.2) ∧ (nestedFields.map Prod.fst).Nodup ∧
      pairs (braced (quotedField '\'') nestedFields) =
        nestedFields.map fun f => (String.ofList f.1, f.2) := by
  have hkeys : ∀ f ∈ nestedFields, f.1 ≠ [] ∧ f.1.all Text.isAsciiLetter = true := by decide
  have hvalues : ∀ f ∈ nestedFields, Quotable f.2 := by decide
  have hfields : ∀ f ∈ nestedFields, IsKey f.1 ∧ Quotable f.2 := fun f hf =>
    ⟨IsKey.of_isAsciiLetter (hkeys f hf).1 (List.all_eq_true.mp (hkeys f hf).2), hvalues f hf⟩
  have hdistinct : (nestedFields.map Prod.fst).Nodup := by decide
  have hholds : ∃ f ∈ nestedFields, HoldsBareKey f.2 :=
    ⟨("b".toList, "\x7bc: [d,]".toList), by decide, [], '\x7b', "c: [d,]".toList, rfl, rfl, by decide⟩
  exact ⟨hfields, hdistinct,
    (pairs_braced_eq_iff (.inr rfl) (by decide) hfields hdistinct).mpr (.inl hholds)⟩

/-- A value that may stand in quotes, of a letter, a comma and a bracket, loses the comma. -/
theorem pairs_loses_comma :
    Quotable "x,]".toList ∧
      braced (quotedField '"') [("a".toList, "x,]".toList)] = "\x7ba: \"x,]\"\x7d".toList ∧
      pairs "\x7ba: \"x,]\"\x7d".toList = [("a", "x]".toList)] ∧
      pairs "\x7ba: \"x,]\"\x7d".toList ≠ [("a", "x,]".toList)] := by
  have hpairs : pairs "\x7ba: \"x,]\"\x7d".toList = [("a", "x]".toList)] := by decide +kernel
  refine ⟨by decide, by decide, hpairs, ?_⟩
  rw [hpairs]
  decide

end Scrape.Evaluate
