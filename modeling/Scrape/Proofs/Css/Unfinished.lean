import Scrape.Css.Parser

/-!
# Css — Unfinished

A name with a bracket that is left open.  The bracket is closed by the end of the text, so that
`li[href` is a selector; it is none if nothing or an exclamation mark stands first in the bracket
(`parse?_open`).  What is read off the name is an identifier, which the bracket follows, or a token
that no compound begins with (`readTokens_name`), such as the number in `5[`.
-/

namespace Scrape.Css

open Scrape.Text (isDigit)

variable {c : Char} {name v s : List Char} {inner : Inner} {manner : Manner} {t : Token}
  {inside : List Token}

/-! ### Tokens -/

/-- The tokens that have been read stand before those that are still to be read. -/
theorem readTokens_acc (fuel : Nat) (close? : Option Char) (acc : List Token) (s : List Char) :
    (readTokens fuel close? acc s).1 = acc.reverse ++ (readTokens fuel close? [] s).1 := by
  induction fuel generalizing close? acc s with
  | zero => simp [readTokens]
  | succ fuel ih =>
    cases s with
    | nil => simp [readTokens]
    | cons c s =>
      -- the kinds of tokens in the order in which they are tried
      unfold readTokens
      split
      · simp
      split
      · rw [ih, ih _ [_]]; simp
      split
      · rw [ih, ih _ []]
      split
      · rw [ih, ih _ [_]]; simp
      split
      · rw [ih, ih _ [_]]; simp
      split
      · rw [ih, ih _ [_]]; simp
      split
      · dsimp only
        split
        · rw [ih, ih _ [_]]; simp
        · rw [ih, ih _ [_]]; simp
      split
      · rw [ih, ih _ [_]]; simp
      · rw [ih, ih _ [_]]; simp

/-- A token that no compound begins with, and that may come of the characters of a name. -/
def Token.beginsNothing : Token → Bool
  | .number ..    => true
  | .dimension .. => true
  | .other        => true
  | .sign '-'     => true
  | _             => false

theorem beginsNothing_numberToken (s : List Char) : (numberToken s).1.beginsNothing = true := by
  unfold numberToken
  dsimp only
  split
  · rfl
  split <;> rfl

/-- A name ends at the bracket after it. -/
theorem readName_append (name : List Char) (hname : ∀ d ∈ name, continuesName d = true)
    {fuel : Nat} (hfuel : name.length < fuel) (acc : List Char) :
    (readName fuel acc (name ++ '[' :: v)).2 = '[' :: v := by
  induction name generalizing fuel acc with
  | nil =>
    obtain ⟨fuel, rfl⟩ : ∃ f, fuel = f + 1 := ⟨fuel - 1, by omega⟩
    rfl
  | cons a name ih =>
    obtain ⟨fuel, rfl⟩ : ∃ f, fuel = f + 1 := ⟨fuel - 1, by omega⟩
    have ha : continuesName a = true := hname a List.mem_cons_self
    have hslash : ¬ (a = '\\' && escapes (name ++ '[' :: v)) = true := by
      intro h
      obtain ⟨h, -⟩ := Bool.and_eq_true_iff.mp h
      rw [of_decide_eq_true h] at ha
      exact absurd ha (by decide)
    rw [List.cons_append, readName, if_neg hslash, if_pos ha]
    exact ih (fun d hd => hname d (List.mem_cons_of_mem a hd)) (by simpa using hfuel) _

/-- What goes on with a name, and begins neither a name nor a number, is a hyphen. -/
theorem eq_hyphen_of_continuesName (hc : continuesName c = true)
    (hname : ¬ atName (c :: s) = true) (hnumber : ¬ atNumber (c :: s) = true) : c = '-' := by
  rw [continuesName, Bool.or_eq_true, Bool.or_eq_true, decide_eq_true_eq] at hc
  rcases hc with (hstarts | hdigit) | hhyphen
  · have hne : c ≠ '\\' := by
      rintro rfl
      exact absurd hstarts (by decide)
    by_cases hhyphen : c = '-'
    · exact hhyphen
    · rw [atName.eq_3 c s (fun _ _ h _ => hhyphen h) hne] at hname
      exact absurd hstarts hname
  · have hne : c ≠ '.' := by
      rintro rfl
      exact absurd hdigit (by decide)
    simp [atNumber, hne, hdigit] at hnumber
  · exact hhyphen

/-- The tokens from an open bracket on. -/
theorem readTokens_open (fuel : Nat) (v : List Char) :
    ∃ p, (readTokens (fuel + 1) none [] ('[' :: v)).1 =
      .block .square (readTokens fuel (some ']') [] v).1 :: p := by
  have hname : atName ('[' :: v) = false := by cases v <;> rfl
  rw [readTokens, if_neg (by decide), if_neg (by decide), if_neg (by simp),
    if_neg (by simp [atNumber, isDigit]), if_neg (by simp), if_neg (by simp), hname,
    if_neg (by decide)]
  dsimp only [opened?]
  exact ⟨_, readTokens_acc ..⟩

/-- **The tokens of a name** and an open bracket: an identifier, which the bracket follows, or
first a token that no compound begins with. -/
theorem readTokens_name (hc : continuesName c = true) (hname : ∀ d ∈ name, continuesName d = true)
    (fuel : Nat) (v : List Char) :
    (∃ t p, (readTokens (fuel + 1) none [] (c :: name ++ '[' :: v)).1 = t :: p ∧
      t.beginsNothing = true) ∨
    ∃ n, (readTokens (fuel + 1) none [] (c :: name ++ '[' :: v)).1 =
      .ident n :: (readTokens fuel none [] ('[' :: v)).1 := by
  have hne {d : Char} (hd : continuesName d = false) : c ≠ d := by
    rintro rfl
    rw [hc] at hd
    cases hd
  have hspace : ¬ isSpace c = true := by
    intro h
    simp only [isSpace, isLineEnd, Bool.or_eq_true, decide_eq_true_eq] at h
    rcases h with (rfl | rfl) | (rfl | rfl) | rfl <;> exact absurd hc (by decide)
  rw [List.cons_append, readTokens, if_neg (by simp), if_neg hspace,
    if_neg (by simp [hne (d := '/') (by decide)])]
  split
  · exact .inl ⟨_, _, readTokens_acc .., beginsNothing_numberToken _⟩
  · next hnumber =>
    split
    · exact .inl ⟨.other, _, readTokens_acc .., rfl⟩
    rw [if_neg (by simp [hne (d := '<') (by decide)])]
    split
    · obtain ⟨n, hn⟩ : ∃ n, Css.name (c :: (name ++ '[' :: v)) = (n, '[' :: v) :=
        ⟨_, Prod.ext rfl (readName_append (c :: name) (by simpa [hc] using hname)
          (by simp) [])⟩
      rw [hn]
      exact .inr ⟨n, readTokens_acc ..⟩
    · next hatName =>
      obtain rfl := eq_hyphen_of_continuesName hc hatName
        (fun h => hnumber (by rw [h, Bool.true_or]))
      exact .inl ⟨.sign '-', _, readTokens_acc .., rfl⟩

/-! ### Compounds -/

/-- No attribute is named by nothing or by an exclamation mark. -/
theorem attribute?_readTokens (fuel : Nat) (hv : v = [] ∨ v.head? = some '!') :
    attribute? (readTokens fuel (some ']') [] v).1 = none := by
  cases fuel with
  | zero => rfl
  | succ fuel =>
    rcases hv with rfl | hv
    · rfl
    · obtain ⟨w, rfl⟩ := List.head?_eq_some_iff.mp hv
      have hname : atName ('!' :: w) = false := by cases w <;> rfl
      have htokens : (readTokens (fuel + 1) (some ']') [] ('!' :: w)).1 =
          .sign '!' :: (readTokens fuel (some ']') [] w).1 := by
        rw [readTokens, if_neg (by decide), if_neg (by decide), if_neg (by simp),
          if_neg (by simp [atNumber, isDigit]), if_neg (by simp), if_neg (by simp), hname,
          if_neg (by decide)]
        exact readTokens_acc fuel (some ']') [.sign '!'] w
      rw [htokens]
      rfl

theorem readCompound?_of_beginsNothing (ht : t.beginsNothing = true) (p : List Token) :
    readCompound? inner manner (t :: p) = none := by
  unfold Token.beginsNothing at ht
  split at ht
  · cases p <;> rfl
  · cases p <;> rfl
  · cases p <;> rfl
  · cases p <;> rfl
  · cases ht

theorem readCompound?_block (hinside : attribute? inside = none) (p : List Token) :
    readCompound? inner manner (.block .square inside :: p) = none := by
  simp [readCompound?, skipBlanks, readType?, readConditions?, atCondition, readCondition?, hinside]

theorem readCompound?_ident_block (n : String) (hinside : attribute? inside = none)
    (p : List Token) :
    readCompound? inner manner (.ident n :: .block .square inside :: p) = none := by
  simp [readCompound?, skipBlanks, readType?, readConditions?, atCondition, readCondition?, hinside]

/-! ### Lists -/

theorem skipBlanks_skipBlanks (ts : List Token) : skipBlanks (skipBlanks ts) = skipBlanks ts := by
  fun_induction skipBlanks ts with
  | case1 r ih => exact ih
  | case2 r h => exact skipBlanks.eq_2 r h

/-- Tokens without a comma belong to the first piece. -/
theorem exists_splitAtCommas_append {front : List Token} (hfront : .comma ∉ front)
    (piece ts : List Token) :
    ∃ p ps, splitAtCommas piece (front ++ ts) = (piece.reverse ++ front ++ p) :: ps := by
  induction front generalizing piece with
  | nil =>
    induction ts generalizing piece with
    | nil => exact ⟨[], [], by simp [splitAtCommas]⟩
    | cons t ts ih =>
      by_cases ht : t = .comma
      · subst ht
        exact ⟨[], splitAtCommas [] ts, by simp [splitAtCommas]⟩
      · obtain ⟨p, ps, hp⟩ := ih (t :: piece)
        refine ⟨t :: p, ps, ?_⟩
        rw [List.nil_append, splitAtCommas.eq_3 _ _ _ ht]
        simpa using hp
  | cons t front ih =>
    obtain ⟨hne, hfront⟩ := List.ne_and_not_mem_of_not_mem_cons hfront
    obtain ⟨p, ps, hp⟩ := ih hfront (t :: piece)
    refine ⟨p, ps, ?_⟩
    rw [List.cons_append, splitAtCommas.eq_3 _ _ _ hne.symm]
    simpa using hp

/-- A list is none if no compound is at its beginning. -/
theorem readList?_append (front : List Token) (hfront : .comma ∉ front)
    (hcompound : ∀ inner p, readCompound? inner {} (front ++ p) = none) (depth : Nat)
    (ts : List Token) : readList? (depth + 1) {} (front ++ ts) = none := by
  obtain ⟨p, ps, hsplit⟩ := exists_splitAtCommas_append hfront [] ts
  have hblanks (inner : Inner) : readCompound? inner {} (skipBlanks (front ++ p)) = none := by
    rw [readCompound?, skipBlanks_skipBlanks]
    exact hcompound inner p
  have hselector : selector? (readList? depth) {} (front ++ p) = none := by
    rw [selector?, if_neg (by decide), readSelector?, hblanks]
  rw [readList?, hsplit, List.mapM_cons]
  simp [hselector]

/-- **A bracket that is left open** after a name, with nothing or an exclamation mark first in it,
makes no selector. -/
theorem parse?_open (hname : ∀ d ∈ name, continuesName d = true)
    (hv : v = [] ∨ v.head? = some '!') : parse? (name ++ '[' :: v) = none := by
  rw [parse?, tokens]
  cases name with
  | nil =>
    obtain ⟨p, hp⟩ := readTokens_open (v.length + 1) v
    rw [List.nil_append, List.length_cons, hp]
    exact readList?_append [_] (by simp)
      (fun inner q => readCompound?_block (attribute?_readTokens _ hv) q) _ p
  | cons c name =>
    obtain ⟨hc, hname⟩ := List.forall_mem_cons.mp hname
    rcases readTokens_name hc hname (c :: name ++ '[' :: v).length v with ⟨t, p, hp, ht⟩ | ⟨n, hn⟩
    · rw [hp]
      refine readList?_append [t] ?_
        (fun inner q => readCompound?_of_beginsNothing ht q) _ p
      intro h
      cases List.mem_singleton.mp h
      cases ht
    · obtain ⟨p, hp⟩ := readTokens_open (name.length + (v.length + 1)) v
      rw [hn]
      simp only [List.cons_append, List.length_cons, List.length_append] at hp ⊢
      rw [hp]
      exact readList?_append [.ident n, _] (by simp)
        (fun inner q => readCompound?_ident_block n (attribute?_readTokens _ hv) q) _ p

end Scrape.Css
