import Mathlib.Data.List.TakeDrop
import Mathlib.Data.List.TakeWhile
import Scrape.Json.Loose

/-!
# Json — Rewriting

The two rewritings that bring a loosely written text into the form of JSON, on a text that has a
quote in it.  Neither looks past a quote, so each goes on behind it as at the start of a text
(`dropCommas_append`, `quoteKeys_append`), and what stands in quotes is rewritten like any text: it
is kept if and only if it holds no comma before a closing bracket (`dropCommas_eq_self_iff`), and no
key without quotes (`quoteKeys_eq_self_or`).
-/

namespace Scrape.Json.Loose

open Scrape.Text (isBlank)

/-! ### What a scan passes -/

section

variable {p : Char → Bool} {c : Char}

theorem takeWhile_append_of_stop (hc : p c = false) (s t : List Char) :
    (s ++ c :: t).takeWhile p = s.takeWhile p := by
  rw [List.takeWhile_append]
  split
  · next h =>
    rw [List.takeWhile_cons, hc, if_neg Bool.false_ne_true, List.append_nil,
      (List.takeWhile_prefix p).eq_of_length h]
  · rfl

theorem dropWhile_append_of_stop (hc : p c = false) (s t : List Char) :
    (s ++ c :: t).dropWhile p = s.dropWhile p ++ c :: t := by
  rw [List.dropWhile_append]
  split
  · next h => rw [List.isEmpty_iff.mp h, List.dropWhile_cons, hc, if_neg Bool.false_ne_true]; rfl
  · rfl

end

/-! ### Commas before closing brackets -/

/-- Whether a comma before this text is left out. -/
def closesNext (s : List Char) : Bool := (s.dropWhile isBlank).head?.any closes

theorem dropCommasFrom_eq {fuel : Nat} {s : List Char} (h : s.length ≤ fuel) :
    dropCommasFrom fuel s = dropCommas s := by
  rw [dropCommas]
  induction hn : s.length using Nat.strongRecOn generalizing s fuel with
  | ind n ih =>
    have hshorter : ∀ {t : List Char} {more : Nat}, t.length < n → t.length ≤ more →
        ∀ {other : Nat}, t.length ≤ other → dropCommasFrom more t = dropCommasFrom other t :=
      fun ht hmore _ hother => (ih _ ht hmore rfl).trans (ih _ ht hother rfl).symm
    cases s with
    | nil => subst hn; cases fuel <;> rfl
    | cons c r =>
      simp only [List.length_cons] at h hn
      obtain ⟨fuel, rfl⟩ : ∃ k, fuel = k + 1 := ⟨fuel - 1, by omega⟩
      subst hn
      have hdrop := (List.dropWhile_suffix isBlank (l := r)).length_le
      have hr : dropCommasFrom fuel r = dropCommasFrom r.length r :=
        hshorter (by omega) (by omega) (Nat.le_refl _)
      rw [dropCommasFrom, dropCommasFrom]
      cases hd : r.dropWhile isBlank with
      | nil => rw [hr]
      | cons d after =>
        rw [hd, List.length_cons] at hdrop
        have hafter : dropCommasFrom fuel after = dropCommasFrom r.length after :=
          hshorter (by omega) (by omega) (by omega)
        dsimp only
        rw [hr, hafter]

theorem dropCommas_nil : dropCommas [] = [] := rfl

theorem dropCommas_cons_of_ne {c : Char} (h : c ≠ ',') (s : List Char) :
    dropCommas (c :: s) = c :: dropCommas s := by
  rw [dropCommas, List.length_cons, dropCommasFrom, if_neg h, dropCommasFrom_eq (Nat.le_refl _)]

theorem dropCommas_comma_of_not {s : List Char} (h : closesNext s = false) :
    dropCommas (',' :: s) = ',' :: dropCommas s := by
  rw [dropCommas, List.length_cons, dropCommasFrom, if_pos rfl, dropCommasFrom_eq (Nat.le_refl _)]
  rw [closesNext] at h
  split
  · next d after hd =>
    rw [hd] at h
    rw [if_neg (by simpa using h)]
  · rfl

theorem dropCommas_comma_of_closes {d : Char} {s after : List Char}
    (hs : s.dropWhile isBlank = d :: after) (hd : closes d = true) :
    dropCommas (',' :: s) = d :: dropCommas after := by
  have hlength := (List.dropWhile_suffix isBlank (l := s)).length_le
  rw [hs, List.length_cons] at hlength
  rw [dropCommas, List.length_cons, dropCommasFrom, if_pos rfl, hs]
  dsimp only
  rw [if_pos hd, dropCommasFrom_eq (by omega)]

theorem closesNext_append {c : Char} (hblank : isBlank c = false) (hc : closes c = false)
    (s t : List Char) : closesNext (s ++ c :: t) = closesNext s := by
  rw [closesNext, closesNext, dropWhile_append_of_stop hblank]
  cases s.dropWhile isBlank with
  | nil => simp [hc]
  | cons d after => rfl

theorem exists_of_closesNext {s : List Char} (h : closesNext s = true) :
    ∃ d after, s.dropWhile isBlank = d :: after ∧ closes d = true := by
  rw [closesNext] at h
  cases hs : s.dropWhile isBlank with
  | nil => rw [hs] at h; cases h
  | cons d after => exact ⟨d, after, rfl, by simpa [hs] using h⟩

/-- **No comma is looked for past a character** that is no blank, no comma and no closing bracket,
such as a quote. -/
theorem dropCommas_append {c : Char} (hcomma : c ≠ ',') (hblank : isBlank c = false)
    (hc : closes c = false) (s t : List Char) :
    dropCommas (s ++ c :: t) = dropCommas s ++ c :: dropCommas t := by
  induction hn : s.length using Nat.strongRecOn generalizing s with
  | ind n ih =>
    cases s with
    | nil => exact dropCommas_cons_of_ne hcomma t
    | cons a s =>
      have hlt : s.length < n := by rw [← hn, List.length_cons]; exact Nat.lt_succ_self _
      rw [List.cons_append]
      by_cases ha : a = ','
      · subst ha
        cases hcloses : closesNext s with
        | false =>
          rw [dropCommas_comma_of_not (by rwa [closesNext_append hblank hc]),
            dropCommas_comma_of_not hcloses, ih _ hlt s rfl, List.cons_append]
        | true =>
          obtain ⟨d, after, hs, hd⟩ := exists_of_closesNext hcloses
          have hlength := (List.dropWhile_suffix isBlank (l := s)).length_le
          rw [hs, List.length_cons] at hlength
          have happend : (s ++ c :: t).dropWhile isBlank = d :: (after ++ c :: t) := by
            rw [dropWhile_append_of_stop hblank, hs, List.cons_append]
          rw [dropCommas_comma_of_closes happend hd, dropCommas_comma_of_closes hs hd,
            ih _ (by omega) after rfl, List.cons_append]
      · rw [dropCommas_cons_of_ne ha, dropCommas_cons_of_ne ha, ih _ hlt s rfl, List.cons_append]

/-- A text without commas is kept. -/
theorem dropCommas_append_of_not_mem {s : List Char} (h : ',' ∉ s) (t : List Char) :
    dropCommas (s ++ t) = s ++ dropCommas t := by
  induction s with
  | nil => rfl
  | cons c s ih =>
    obtain ⟨hc, hs⟩ := List.ne_and_not_mem_of_not_mem_cons h
    rw [List.cons_append, dropCommas_cons_of_ne (Ne.symm hc), ih hs, List.cons_append]

theorem length_dropCommas_le (s : List Char) : (dropCommas s).length ≤ s.length := by
  induction hn : s.length using Nat.strongRecOn generalizing s with
  | ind n ih =>
    cases s with
    | nil => exact Nat.zero_le _
    | cons c s =>
      rw [List.length_cons] at hn
      have hs := ih s.length (by omega) s rfl
      by_cases hc : c = ','
      · subst hc
        cases hcloses : closesNext s with
        | false =>
          rw [dropCommas_comma_of_not hcloses, List.length_cons]
          omega
        | true =>
          obtain ⟨d, after, hd, hcd⟩ := exists_of_closesNext hcloses
          have hlength := (List.dropWhile_suffix isBlank (l := s)).length_le
          rw [hd, List.length_cons] at hlength
          have := ih after.length (by omega) after rfl
          rw [dropCommas_comma_of_closes hd hcd, List.length_cons]
          omega
      · rw [dropCommas_cons_of_ne hc, List.length_cons]
        omega

theorem mem_of_mem_dropCommas {c : Char} {s : List Char} (h : c ∈ dropCommas s) : c ∈ s := by
  induction hn : s.length using Nat.strongRecOn generalizing s with
  | ind n ih =>
    cases s with
    | nil => exact h
    | cons a s =>
      rw [List.length_cons] at hn
      by_cases ha : a = ','
      · subst ha
        cases hcloses : closesNext s with
        | false =>
          rw [dropCommas_comma_of_not hcloses, List.mem_cons] at h
          exact List.mem_cons.mpr (h.imp_right fun h => ih _ (by omega) h rfl)
        | true =>
          obtain ⟨d, after, hd, hcd⟩ := exists_of_closesNext hcloses
          have hsuffix := List.dropWhile_suffix isBlank (l := s)
          have hlength := hsuffix.length_le
          rw [hd] at hsuffix hlength
          rw [List.length_cons] at hlength
          rw [dropCommas_comma_of_closes hd hcd, List.mem_cons] at h
          refine List.mem_cons_of_mem _ (hsuffix.subset (List.mem_cons.mpr ?_))
          exact h.imp_right fun h => ih _ (by omega) h rfl
      · rw [dropCommas_cons_of_ne ha, List.mem_cons] at h
        exact List.mem_cons.mpr (h.imp_right fun h => ih _ (by omega) h rfl)

/-- Somewhere in the text a comma stands before a closing bracket, with at most blanks between
them. -/
def HoldsTrailingComma (s : List Char) : Prop := ∃ a b, s = a ++ ',' :: b ∧ closesNext b = true

/-- **A text is kept** if and only if it holds no comma before a closing bracket. -/
theorem dropCommas_eq_self_iff {s : List Char} : dropCommas s = s ↔ ¬ HoldsTrailingComma s := by
  have hcons : ∀ (c : Char) (r : List Char), HoldsTrailingComma (c :: r) ↔
      (c = ',' ∧ closesNext r = true) ∨ HoldsTrailingComma r := by
    intro c r
    constructor
    · rintro ⟨a, b, hs, hb⟩
      cases a with
      | nil =>
        obtain ⟨rfl, rfl⟩ := List.cons.inj hs
        exact .inl ⟨rfl, hb⟩
      | cons d a =>
        obtain ⟨rfl, rfl⟩ := List.cons.inj hs
        exact .inr ⟨a, b, rfl, hb⟩
    · rintro (⟨rfl, hr⟩ | ⟨a, b, rfl, hb⟩)
      · exact ⟨[], r, rfl, hr⟩
      · exact ⟨c :: a, b, rfl, hb⟩
  induction s with
  | nil =>
    refine iff_of_true rfl ?_
    rintro ⟨a, b, hs, -⟩
    simp at hs
  | cons c s ih =>
    rw [hcons, not_or]
    by_cases hc : c = ','
    · subst hc
      cases hcloses : closesNext s with
      | false => simp [dropCommas_comma_of_not hcloses, ih]
      | true =>
        obtain ⟨d, after, hd, hcd⟩ := exists_of_closesNext hcloses
        have hlength := (List.dropWhile_suffix isBlank (l := s)).length_le
        rw [hd, List.length_cons] at hlength
        refine iff_of_false (fun heq => ?_) (by simp)
        have hle := length_dropCommas_le after
        have := congrArg List.length heq
        rw [dropCommas_comma_of_closes hd hcd, List.length_cons, List.length_cons] at this
        omega
    · simp [dropCommas_cons_of_ne hc, hc, ih]

/-! ### Keys without quotes -/

/-- A key is not looked for past a character that is no part of one, such as a quote. -/
theorem readKey?_append {c : Char} (hblank : isBlank c = false) (hkey : isKeyChar c = false)
    (hcolon : c ≠ ':') (s t : List Char) :
    readKey? (s ++ c :: t) =
      (readKey? s).map fun found => (found.1, found.2.1, found.2.2 ++ c :: t) := by
  simp only [readKey?, List.span_eq_takeWhile_dropWhile, takeWhile_append_of_stop hblank,
    dropWhile_append_of_stop hblank, takeWhile_append_of_stop hkey, dropWhile_append_of_stop hkey]
  cases ((s.dropWhile isBlank).takeWhile isKeyChar).isEmpty with
  | true => rfl
  | false =>
    cases ((s.dropWhile isBlank).dropWhile isKeyChar).dropWhile isBlank with
    | nil =>
      simp only [if_neg Bool.false_ne_true, List.nil_append]
      split
      · next h => exact absurd (List.head_eq_of_cons_eq h) hcolon
      · rfl
    | cons d after =>
      by_cases hd : d = ':'
      · subst hd
        rfl
      · simp only [if_neg Bool.false_ne_true, List.cons_append]
        split
        · next h => exact absurd (List.head_eq_of_cons_eq h) hd
        · split
          · next h => exact absurd (List.head_eq_of_cons_eq h) hd
          · rfl

/-- What a key that is found consists of, and where its text goes on. -/
theorem exists_of_readKey? {s blanks key after : List Char}
    (h : readKey? s = some (blanks, key, after)) :
    key ≠ [] ∧ (∀ c ∈ key, isKeyChar c = true) ∧ (∀ c ∈ blanks, isBlank c = true) ∧
      ∃ more, (∀ c ∈ more, isBlank c = true) ∧ s = blanks ++ (key ++ (more ++ ':' :: after)) := by
  simp only [readKey?, List.span_eq_takeWhile_dropWhile] at h
  split at h
  · cases h
  · next hkey =>
    split at h
    · next after' hafter =>
      obtain ⟨rfl, rfl, rfl⟩ := by simpa using h
      refine ⟨by simpa using hkey, fun c hc => List.mem_takeWhile_imp hc,
        fun c hc => List.mem_takeWhile_imp hc,
        ((s.dropWhile isBlank).dropWhile isKeyChar).takeWhile isBlank,
        fun c hc => List.mem_takeWhile_imp hc, ?_⟩
      rw [← hafter, List.takeWhile_append_dropWhile, List.takeWhile_append_dropWhile,
        List.takeWhile_append_dropWhile]
    · cases h

theorem length_of_readKey? {s blanks key after : List Char}
    (h : readKey? s = some (blanks, key, after)) : after.length < s.length := by
  obtain ⟨-, -, -, more, -, rfl⟩ := exists_of_readKey? h
  simp only [List.length_append, List.length_cons]
  omega

theorem quoteKeysFrom_eq {fuel : Nat} {s : List Char} (h : s.length ≤ fuel) :
    quoteKeysFrom fuel s = quoteKeys s := by
  rw [quoteKeys]
  induction hn : s.length using Nat.strongRecOn generalizing s fuel with
  | ind n ih =>
    have hshorter : ∀ {t : List Char} {more : Nat}, t.length < n → t.length ≤ more →
        ∀ {other : Nat}, t.length ≤ other → quoteKeysFrom more t = quoteKeysFrom other t :=
      fun ht hmore _ hother => (ih _ ht hmore rfl).trans (ih _ ht hother rfl).symm
    cases s with
    | nil => subst hn; cases fuel <;> rfl
    | cons c r =>
      simp only [List.length_cons] at h hn
      obtain ⟨fuel, rfl⟩ : ∃ k, fuel = k + 1 := ⟨fuel - 1, by omega⟩
      subst hn
      have hr : quoteKeysFrom fuel r = quoteKeysFrom r.length r :=
        hshorter (by omega) (by omega) (Nat.le_refl _)
      rw [quoteKeysFrom, quoteKeysFrom]
      cases hkey : readKey? r with
      | none => rw [hr]
      | some found =>
        obtain ⟨blanks, key, after⟩ := found
        have := length_of_readKey? hkey
        have hafter : quoteKeysFrom fuel after = quoteKeysFrom r.length after :=
          hshorter (by omega) (by omega) (by omega)
        dsimp only
        rw [hr, hafter]

/-- Whether the character can stand before a key. -/
def leadsKey (c : Char) : Bool := c = '\x7b' || c = ','

theorem quoteKeys_cons_of_not {c : Char} {s : List Char}
    (h : leadsKey c = false ∨ readKey? s = none) : quoteKeys (c :: s) = c :: quoteKeys s := by
  rw [quoteKeys, List.length_cons, quoteKeysFrom, quoteKeysFrom_eq (Nat.le_refl _)]
  rcases h with h | h
  · exact if_neg (by rw [← leadsKey, h]; exact Bool.false_ne_true)
  · rw [h]
    exact ite_self _

theorem quoteKeys_cons_of_key {c : Char} {s blanks key after : List Char} (hc : leadsKey c = true)
    (h : readKey? s = some (blanks, key, after)) :
    quoteKeys (c :: s) = c :: blanks ++ '"' :: key ++ '"' :: ':' :: quoteKeys after := by
  have := length_of_readKey? h
  rw [quoteKeys, List.length_cons, quoteKeysFrom, ← leadsKey, if_pos hc, h]
  dsimp only
  rw [quoteKeysFrom_eq (by omega)]

/-- **No key is looked for past a character** that is no part of one. -/
theorem quoteKeys_append {c : Char} (hlead : leadsKey c = false) (hblank : isBlank c = false)
    (hkey : isKeyChar c = false) (hcolon : c ≠ ':') (s t : List Char) :
    quoteKeys (s ++ c :: t) = quoteKeys s ++ c :: quoteKeys t := by
  induction hn : s.length using Nat.strongRecOn generalizing s with
  | ind n ih =>
    cases s with
    | nil => exact quoteKeys_cons_of_not (.inl hlead)
    | cons a s =>
      have hlt : s.length < n := by rw [← hn, List.length_cons]; exact Nat.lt_succ_self _
      have happend := readKey?_append hblank hkey hcolon s t
      rw [List.cons_append]
      cases ha : leadsKey a with
      | false =>
        rw [quoteKeys_cons_of_not (.inl ha), quoteKeys_cons_of_not (.inl ha), ih _ hlt s rfl,
          List.cons_append]
      | true =>
        cases hs : readKey? s with
        | none =>
          rw [hs] at happend
          rw [quoteKeys_cons_of_not (.inr happend), quoteKeys_cons_of_not (.inr hs),
            ih _ hlt s rfl, List.cons_append]
        | some found =>
          obtain ⟨blanks, key, after⟩ := found
          have := length_of_readKey? hs
          rw [hs] at happend
          rw [quoteKeys_cons_of_key ha happend, quoteKeys_cons_of_key ha hs,
            ih _ (by omega) after rfl]
          simp

/-- Somewhere in the text a key without quotes stands behind an opening brace or a comma. -/
def HoldsBareKey (s : List Char) : Prop :=
  ∃ a c b, s = a ++ c :: b ∧ leadsKey c = true ∧ (readKey? b).isSome

theorem holdsBareKey_cons_iff {c : Char} {s : List Char} :
    HoldsBareKey (c :: s) ↔ (leadsKey c = true ∧ (readKey? s).isSome) ∨ HoldsBareKey s := by
  constructor
  · rintro ⟨a, d, b, hs, hd, hb⟩
    cases a with
    | nil =>
      obtain ⟨rfl, rfl⟩ := List.cons.inj hs
      exact .inl ⟨hd, hb⟩
    | cons e a =>
      obtain ⟨rfl, rfl⟩ := List.cons.inj hs
      exact .inr ⟨a, d, b, rfl, hd, hb⟩
  · rintro (⟨hc, hs⟩ | ⟨a, d, b, rfl, hd, hb⟩)
    · exact ⟨[], c, s, rfl, hc, hs⟩
    · exact ⟨c :: a, d, b, rfl, hd, hb⟩

theorem not_holdsBareKey_nil : ¬ HoldsBareKey [] := by
  rintro ⟨a, c, b, hs, -⟩
  simp at hs

/-- **A text is kept** if and only if it holds no key without quotes; else the first such key comes
to stand in quotes, behind a text that is kept. -/
theorem quoteKeys_eq_self_or (s : List Char) :
    (¬ HoldsBareKey s ∧ quoteKeys s = s) ∨
      (HoldsBareKey s ∧ ∃ before c key after, quoteKeys s = before ++ '"' :: c :: key ++ after ∧
        isKeyChar c = true ∧ ∃ rest, s = before ++ rest) := by
  induction s with
  | nil => exact .inl ⟨not_holdsBareKey_nil, rfl⟩
  | cons a s ih =>
    by_cases hfound : leadsKey a = true ∧ (readKey? s).isSome
    · obtain ⟨⟨blanks, key, after⟩, hs⟩ := Option.isSome_iff_exists.mp hfound.2
      obtain ⟨hne, hkey, -, more, -, rfl⟩ := exists_of_readKey? hs
      obtain ⟨c, key, rfl⟩ := List.exists_cons_of_ne_nil hne
      refine .inr ⟨holdsBareKey_cons_iff.mpr (.inl hfound), a :: blanks, c, key,
        '"' :: ':' :: quoteKeys after, ?_, hkey c List.mem_cons_self, _, rfl⟩
      rw [quoteKeys_cons_of_key hfound.1 hs, List.cons_append, List.cons_append, List.append_assoc]
    · have hcons : quoteKeys (a :: s) = a :: quoteKeys s := by
        refine quoteKeys_cons_of_not ?_
        rw [not_and_or, Bool.not_eq_true, Option.not_isSome_iff_eq_none] at hfound
        exact hfound
      rw [holdsBareKey_cons_iff, hcons]
      rcases ih with ⟨hnot, hs⟩ | ⟨hholds, before, c, key, after, hs, hc, rest, hrest⟩
      · exact .inl ⟨by tauto, by rw [hs]⟩
      · exact .inr ⟨.inr hholds, a :: before, c, key, after, by rw [hs]; simp, hc, rest,
          by rw [hrest]; rfl⟩

/-! ### One rewriting after the other -/

/-- Whether a comma or a closing bracket, a character ends the search for a key. -/
theorem readKey?_append_of_closes {c : Char} (hc : c = ',' ∨ closes c = true) (s t : List Char) :
    (readKey? (s ++ c :: t)).isSome = (readKey? s).isSome := by
  have hends : isBlank c = false ∧ isKeyChar c = false ∧ c ≠ ':' := by
    rw [closes, Bool.or_eq_true, decide_eq_true_eq, decide_eq_true_eq] at hc
    rcases hc with rfl | rfl | rfl
    all_goals decide
  rw [readKey?_append hends.1 hends.2.1 hends.2.2, Option.isSome_map]

theorem isSome_readKey?_dropCommas (s : List Char) :
    (readKey? (dropCommas s)).isSome = (readKey? s).isSome := by
  by_cases hmem : ',' ∈ s
  · obtain ⟨before, after, rfl, hbefore⟩ := List.eq_append_cons_of_mem hmem
    rw [dropCommas_append_of_not_mem hbefore, readKey?_append_of_closes (.inl rfl)]
    cases hcloses : closesNext after with
    | false => rw [dropCommas_comma_of_not hcloses, readKey?_append_of_closes (.inl rfl)]
    | true =>
      obtain ⟨d, rest, hd, hcd⟩ := exists_of_closesNext hcloses
      rw [dropCommas_comma_of_closes hd hcd, readKey?_append_of_closes (.inr hcd)]
  · have h := dropCommas_append_of_not_mem hmem []
    rw [List.append_nil, dropCommas_nil, List.append_nil] at h
    rw [h]

theorem holdsBareKey_append_of_forall {s : List Char} (h : ∀ c ∈ s, leadsKey c = false)
    (t : List Char) : HoldsBareKey (s ++ t) ↔ HoldsBareKey t := by
  induction s with
  | nil => rfl
  | cons c s ih =>
    rw [List.forall_mem_cons] at h
    rw [List.cons_append, holdsBareKey_cons_iff, ih h.2, h.1]
    simp

/-- Leaving out commas takes no key away, and brings none. -/
theorem holdsBareKey_dropCommas_iff {s : List Char} :
    HoldsBareKey (dropCommas s) ↔ HoldsBareKey s := by
  induction hn : s.length using Nat.strongRecOn generalizing s with
  | ind n ih =>
    cases s with
    | nil => rfl
    | cons c s =>
      have hlt : s.length < n := by rw [← hn, List.length_cons]; exact Nat.lt_succ_self _
      have hkept : HoldsBareKey (c :: dropCommas s) ↔ HoldsBareKey (c :: s) := by
        rw [holdsBareKey_cons_iff, holdsBareKey_cons_iff, isSome_readKey?_dropCommas,
          ih _ hlt rfl]
      by_cases hc : c = ','
      · subst hc
        cases hcloses : closesNext s with
        | false => rwa [dropCommas_comma_of_not hcloses]
        | true =>
          obtain ⟨d, rest, hd, hcd⟩ := exists_of_closesNext hcloses
          have hs := List.takeWhile_append_dropWhile (p := isBlank) (l := s)
          rw [hd] at hs
          have hlength := congrArg List.length hs
          rw [List.length_append, List.length_cons] at hlength
          have hblanks : ∀ a ∈ s.takeWhile isBlank, leadsKey a = false := by
            intro a ha
            have hblank := List.mem_takeWhile_imp ha
            rw [leadsKey, Bool.or_eq_false_iff, decide_eq_false_iff_not, decide_eq_false_iff_not]
            constructor
            all_goals
              rintro rfl
              exact absurd hblank (by decide)
          have hdlead : leadsKey d = false := by
            rw [closes, Bool.or_eq_true, decide_eq_true_eq, decide_eq_true_eq] at hcd
            rcases hcd with rfl | rfl
            all_goals decide
          have hkey : (readKey? s).isSome = false := by
            rw [← hs, readKey?_append_of_closes (.inr hcd)]
            have hnone : readKey? (s.takeWhile isBlank) = none := by
              cases hkey : readKey? (s.takeWhile isBlank) with
              | none => rfl
              | some found =>
                obtain ⟨blanks, key, after⟩ := found
                obtain ⟨-, -, -, more, -, heq⟩ := exists_of_readKey? hkey
                have hcolon : ':' ∈ s.takeWhile isBlank := by rw [heq]; simp
                exact absurd (List.mem_takeWhile_imp hcolon) (by decide)
            rw [hnone]
            rfl
          rw [dropCommas_comma_of_closes hd hcd, holdsBareKey_cons_iff, ih _ (by omega) rfl,
            holdsBareKey_cons_iff, hkey]
          rw [← hs, holdsBareKey_append_of_forall hblanks, holdsBareKey_cons_iff, hdlead]
          simp
      · rwa [dropCommas_cons_of_ne hc]

end Scrape.Json.Loose
