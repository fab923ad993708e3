import Mathlib.Data.List.TakeWhile
import Scrape.Proofs.Css.Unfinished
import Scrape.Proofs.Text.Find

/-!
# Css — Quoted

The selector of an attribute whose value is written in quotes, with a backslash before each quote of
the value and nothing before its other characters.  It is read back as the value if each of these
characters stands for itself (`parse?_quotedText_of_isVerbatim`).  If not, it is no selector, or it
is one of another value (`parse?_quotedText_of_not_isVerbatim`): a backslash is taken for the start
of an escape, and a line end for the end of the string.

Here no quote follows right on a backslash; such a one would be read as the end of the string, and
what comes after it as a part of the selector.
-/

namespace Scrape.Css

/-- The text with a backslash before each quote. -/
def escaped (s : List Char) : List Char := s.flatMap fun c => if c = '"' then ['\\', '"'] else [c]

/-- What comes after a text in quotes at the end of a selector. -/
def closing : List Char := ['"', ']']

/-- The selector of an id that is written in quotes. -/
def quotedText (s : List Char) : List Char := "[id=\"".toList ++ (escaped s ++ closing)

/-- Whether the character stands for itself in quotes, or does so after a backslash as a quote
does. -/
def isVerbatim (c : Char) : Bool := !(c = '\\' || c = '\x00' || isLineEnd c)

variable {s t z : List Char} {c d : Char} {fuel : Nat} {acc : List Char}

theorem isVerbatim_iff :
    isVerbatim c = true ↔ (c ≠ '\\' ∧ c ≠ '\x00') ∧ isLineEnd c = false := by
  simp [isVerbatim]

/-! ### Escaped texts -/

theorem escaped_cons_of_ne (hc : c ≠ '"') (s : List Char) : escaped (c :: s) = c :: escaped s := by
  simp [escaped, hc]

/-- What is read of an escaped text without a quote or a backslash is read of the text. -/
theorem exists_of_escaped_append {front r : List Char} (h : escaped s ++ closing = front ++ r)
    (hfront : ∀ c ∈ front, c ≠ '"' ∧ c ≠ '\\') :
    ∃ z, s = front ++ z ∧ r = escaped z ++ closing := by
  induction front generalizing s with
  | nil => exact ⟨s, rfl, h.symm⟩
  | cons c front ih =>
    obtain ⟨⟨hquote, hslash⟩, hmore⟩ := List.forall_mem_cons.mp hfront
    cases s with
    | nil => exact absurd (List.cons.inj h).1.symm hquote
    | cons d s =>
      by_cases hd : d = '"'
      · subst hd
        exact absurd (List.cons.inj h).1.symm hslash
      · rw [escaped_cons_of_ne hd] at h
        obtain ⟨rfl, hrest⟩ := List.cons.inj h
        obtain ⟨z, rfl, hr⟩ := ih hrest hmore
        exact ⟨z, rfl, hr⟩

theorem isSpace_ne (h : isSpace c = true) : c ≠ '"' ∧ c ≠ '\\' := by
  constructor <;> rintro rfl <;> exact absurd h (by decide)

theorem isLineEnd_ne (h : isLineEnd c = true) : c ≠ '\\' := by
  rintro rfl
  exact absurd h (by decide)

/-- After a line end, what is left of an escaped text is that of a part. -/
theorem afterLineEnd_escaped (hquote : d ≠ '"') (hslash : d ≠ '\\') (s : List Char) :
    ∃ z, afterLineEnd (escaped (d :: s) ++ closing) = escaped z ++ closing ∧ z <:+ s := by
  rw [escaped_cons_of_ne hquote, List.cons_append]
  unfold afterLineEnd
  split
  · next r hr =>
    obtain ⟨rfl, hrest⟩ := List.cons.inj hr
    have hfront : escaped s ++ closing = ['\n'] ++ r := hrest
    obtain ⟨z, rfl, rfl⟩ := exists_of_escaped_append hfront (by simp)
    exact ⟨z, rfl, List.suffix_cons _ _⟩
  · next r hr =>
    obtain ⟨rfl, rfl⟩ := List.cons.inj hr
    exact ⟨s, rfl, List.suffix_refl s⟩
  · next hr => cases hr

/-- Whether the character is one of the digits of an escape. -/
def isEscapeDigit (c : Char) : Bool := (Text.digitValue? 16 c).isSome

theorem isEscapeDigit_ne (h : isEscapeDigit c = true) : c ≠ '"' ∧ c ≠ '\\' := by
  constructor <;> rintro rfl <;> exact absurd h (by decide)

/-- After an escape, what is left of an escaped text is that of a part. -/
theorem readEscape_escaped (hquote : d ≠ '"') (s : List Char) :
    ∃ e z, readEscape (escaped (d :: s) ++ closing) = (e, escaped z ++ closing) ∧ z <:+ s := by
  obtain ⟨digits, heq⟩ : ∃ digits, digits =
      ((escaped (d :: s) ++ closing).take 6).takeWhile fun c => (Text.digitValue? 16 c).isSome :=
    ⟨_, rfl⟩
  have hprefix : digits <+: escaped (d :: s) ++ closing :=
    heq ▸ (List.takeWhile_prefix _).trans (List.take_prefix _ _)
  have hdigits : ∀ c ∈ digits, c ≠ '"' ∧ c ≠ '\\' := fun c hc =>
    isEscapeDigit_ne (List.mem_takeWhile_imp (p := isEscapeDigit) (heq ▸ hc))
  unfold readEscape
  rw [← heq]
  clear heq
  cases digits with
  | nil =>
    rw [escaped_cons_of_ne hquote]
    exact ⟨_, s, rfl, List.suffix_refl s⟩
  | cons digit digits =>
    dsimp only
    obtain ⟨r, hr⟩ := hprefix
    obtain ⟨z, hz, rfl⟩ := exists_of_escaped_append hr.symm hdigits
    have hsuffix : z <:+ s := ⟨digits, (List.cons.inj hz).2.symm⟩
    rw [← hr, List.drop_left]
    -- a blank after the digits belongs to the escape
    cases z with
    | nil => exact ⟨_, [], rfl, hsuffix⟩
    | cons c z =>
      have hz : z <:+ s := (List.suffix_cons c z).trans hsuffix
      by_cases hc : c = '"'
      · subst hc
        exact ⟨_, '"' :: z, rfl, hsuffix⟩
      · obtain ⟨z', hafter, hz'⟩ : ∃ z',
            (if isSpace c then afterLineEnd (c :: (escaped z ++ closing))
              else c :: (escaped z ++ closing)) = escaped z' ++ closing ∧ z' <:+ s := by
          rw [← List.cons_append, ← escaped_cons_of_ne hc]
          split
          · next hspace =>
            obtain ⟨z', hafter, hz'⟩ := afterLineEnd_escaped hc (isSpace_ne hspace).2 z
            exact ⟨z', hafter, hz'.trans hz⟩
          · exact ⟨c :: z, rfl, hsuffix⟩
        rw [escaped_cons_of_ne hc, List.cons_append]
        exact ⟨_, z', Prod.ext rfl hafter, hz'⟩

/-! ### Reading a value back -/

/-- How a value in which no quote follows on a backslash is read back: as a text that is no longer
and is the value only if each character stands for itself, or, up to the end of the selector, as one
that ends with the bracket, while the value ends with a backslash. -/
inductive ReadBack (s : List Char) : List Char → List Char → Prop where
  | closed {w : List Char} : w.length ≤ s.length → (w = s → ∀ c ∈ s, isVerbatim c = true) →
    ReadBack s w [']']
  | unclosed {w : List Char} : w.getLast? = some ']' → s.getLast? = some '\\' → ReadBack s w []

namespace ReadBack

variable {w r : List Char}

theorem getLast?_cons_of_some {l : List Char} (h : l.getLast? = some d) (c : Char) :
    (c :: l).getLast? = some d := by
  rw [List.getLast?_cons, h, Option.getD_some]

theorem getLast?_of_suffix (hz : z <:+ s) (h : z.getLast? = some d) : s.getLast? = some d := by
  obtain ⟨front, rfl⟩ := hz
  rw [List.getLast?_append, h, Option.some_or]

/-- A character that is read as another one, or as itself if it stands for itself. -/
theorem cons (h : ReadBack s w r) (hc : c = d → isVerbatim c = true) :
    ReadBack (c :: s) (d :: w) r := by
  cases h with
  | closed hlength heq =>
    refine .closed (Nat.succ_le_succ hlength) fun hsame => ?_
    obtain ⟨rfl, rfl⟩ := List.cons.inj hsame
    exact List.forall_mem_cons.mpr ⟨hc rfl, heq rfl⟩
  | unclosed hw hs => exact .unclosed (getLast?_cons_of_some hw d) (getLast?_cons_of_some hs c)

/-- What is left after an escape, and the text of the escape, which is longer than what it stands
for. -/
theorem escape {w' : List Char} (h : ReadBack z w r) (hz : z <:+ s) (hw : w <:+ w')
    (hlength : w'.length ≤ w.length + 1) : ReadBack (c :: d :: s) w' r := by
  cases h with
  | closed hread _ =>
    have hshort : w'.length < (c :: d :: s).length := by
      have := hz.length_le
      simp only [List.length_cons]
      omega
    refine .closed hshort.le fun hsame => ?_
    rw [hsame] at hshort
    exact absurd hshort (Nat.lt_irrefl _)
  | unclosed hlast hs =>
    have hsuffix : z <:+ c :: d :: s :=
      hz.trans ((List.suffix_cons d s).trans (List.suffix_cons c _))
    exact .unclosed (getLast?_of_suffix hw hlast) (getLast?_of_suffix hsuffix hs)

/-- A value with a character that does not stand for itself is not read back. -/
theorem ne (h : ReadBack s w r) (hs : ∃ c ∈ s, isVerbatim c = false) : w ≠ s := by
  obtain ⟨c, hc, hverbatim⟩ := hs
  rintro rfl
  cases h with
  | closed _ heq =>
    rw [heq rfl c hc] at hverbatim
    cases hverbatim
  | unclosed hw hs =>
    rw [hw] at hs
    cases hs

theorem rest_eq (h : ReadBack s w r) : r = [']'] ∨ r = [] := by
  cases h with
  | closed => exact .inl rfl
  | unclosed => exact .inr rfl

end ReadBack

theorem readQuoted_plain (hquote : c ≠ '"') (hline : isLineEnd c = false) (hslash : c ≠ '\\')
    (t : List Char) : readQuoted '"' (fuel + 1) acc (c :: t) =
      readQuoted '"' fuel ((if c = '\x00' then replacement else c) :: acc) t := by
  cases t <;> rw [readQuoted, if_neg hquote, if_neg (by simp [hline]), if_neg hslash]

theorem readQuoted_lineEnd (hquote : c ≠ '"') (hline : isLineEnd c = true) (t : List Char) :
    readQuoted '"' (fuel + 1) acc (c :: t) = (none, c :: t) := by
  cases t <;> rw [readQuoted, if_neg hquote, if_pos hline]

theorem readQuoted_slash (d : Char) (t : List Char) :
    readQuoted '"' (fuel + 1) acc ('\\' :: d :: t) =
      if isLineEnd d then readQuoted '"' fuel acc (afterLineEnd (d :: t))
      else readQuoted '"' fuel ((readEscape (d :: t)).1 :: acc) (readEscape (d :: t)).2 :=
  rfl

/-- A backslash at the end keeps the string from being closed. -/
theorem readQuoted_unclosed (hfuel : 0 < fuel) :
    readQuoted '"' (fuel + 1) acc ('\\' :: (escaped [] ++ closing)) =
      (some (String.ofList (acc.reverse ++ ['"', ']'])), []) := by
  obtain ⟨fuel, rfl⟩ : ∃ n, fuel = n + 1 := ⟨fuel - 1, by omega⟩
  have hend : readQuoted '"' fuel (']' :: '"' :: acc) [] =
      (some (String.ofList (']' :: '"' :: acc).reverse), []) := by
    cases fuel <;> rfl
  rw [List.reverse_cons, List.reverse_cons, List.append_assoc] at hend
  exact hend

/-- Characters that stand for themselves are read back. -/
theorem readQuoted_escaped_of_isVerbatim (hs : ∀ c ∈ s, isVerbatim c = true)
    (hfuel : s.length < fuel) :
    readQuoted '"' fuel acc (escaped s ++ closing) =
      (some (String.ofList (acc.reverse ++ s)), [']']) := by
  induction s generalizing fuel acc with
  | nil =>
    obtain ⟨fuel, rfl⟩ : ∃ n, fuel = n + 1 := ⟨fuel - 1, by omega⟩
    rw [List.append_nil]
    rfl
  | cons c s ih =>
    obtain ⟨fuel, rfl⟩ : ∃ n, fuel = n + 1 := ⟨fuel - 1, by omega⟩
    obtain ⟨hc, hs⟩ := List.forall_mem_cons.mp hs
    have hread : readQuoted '"' fuel (c :: acc) (escaped s ++ closing) =
        (some (String.ofList (acc.reverse ++ c :: s)), [']']) := by
      rw [ih hs (Nat.lt_of_succ_lt_succ hfuel), List.reverse_cons, List.append_assoc,
        List.singleton_append]
    by_cases hquote : c = '"'
    · subst hquote
      exact hread
    · obtain ⟨⟨hslash, hnul⟩, hline⟩ := isVerbatim_iff.mp hc
      rw [escaped_cons_of_ne hquote, List.cons_append, readQuoted_plain hquote hline hslash,
        if_neg hnul]
      exact hread

theorem ofList_reverse_cons (e : Char) (acc w : List Char) :
    String.ofList ((e :: acc).reverse ++ w) = String.ofList (acc.reverse ++ e :: w) := by
  rw [List.reverse_cons, List.append_assoc, List.singleton_append]

/-- A backslash with a character after it is read back if every part of the text after that
character is. -/
theorem readBack_of_slash {value : String} {r : List Char} (hd : d ≠ '"')
    (hread : ∀ (z acc : List Char), z <:+ s →
      readQuoted '"' fuel acc (escaped z ++ closing) = (some value, r) →
      ∃ w, value = String.ofList (acc.reverse ++ w) ∧ ReadBack z w r)
    (h : readQuoted '"' (fuel + 1) acc ('\\' :: (escaped (d :: s) ++ closing)) =
      (some value, r)) :
    ∃ w, value = String.ofList (acc.reverse ++ w) ∧ ReadBack ('\\' :: d :: s) w r := by
  rw [escaped_cons_of_ne hd, List.cons_append, readQuoted_slash, ← List.cons_append,
    ← escaped_cons_of_ne hd] at h
  split at h
  · next hline =>
    obtain ⟨z, hafter, hz⟩ := afterLineEnd_escaped hd (isLineEnd_ne hline) s
    rw [hafter] at h
    obtain ⟨w, hw, hback⟩ := hread z acc hz h
    exact ⟨w, hw, hback.escape hz (List.suffix_refl w) (Nat.le_succ _)⟩
  · obtain ⟨e, z, hescape, hz⟩ := readEscape_escaped hd s
    rw [hescape] at h
    obtain ⟨w, hw, hback⟩ := hread z (e :: acc) hz h
    exact ⟨_, hw.trans (ofList_reverse_cons _ _ _),
      hback.escape hz (List.suffix_cons e w) (Nat.le_refl _)⟩

/-- **Reading back** a value in which no quote follows on a backslash. -/
theorem readBack_of_readQuoted {value : String} {r : List Char} (hsafe : ¬ ['\\', '"'] <:+: s)
    (hfuel : s.length < fuel)
    (h : readQuoted '"' fuel acc (escaped s ++ closing) = (some value, r)) :
    ∃ w, value = String.ofList (acc.reverse ++ w) ∧ ReadBack s w r := by
  -- each step reads a character, or an escape and what it stands for, and what is left is escaped
  induction fuel generalizing s acc with
  | zero => omega
  | succ fuel ih =>
    cases s with
    | nil =>
      cases h
      exact ⟨[], by rw [List.append_nil], .closed (Nat.le_refl 0) fun _ => nofun⟩
    | cons c s =>
      have hpart (z acc : List Char) (hz : z <:+ s)
          (h : readQuoted '"' fuel acc (escaped z ++ closing) = (some value, r)) :
          ∃ w, value = String.ofList (acc.reverse ++ w) ∧ ReadBack z w r := by
        have hinfix : z <:+: c :: s := (hz.trans (List.suffix_cons c s)).isInfix
        exact ih (fun hmem => hsafe (hmem.trans hinfix))
          (Nat.lt_of_le_of_lt hz.length_le (Nat.lt_of_succ_lt_succ hfuel)) h
      by_cases hquote : c = '"'
      · subst hquote
        obtain ⟨w, hw, hback⟩ := hpart s _ (List.suffix_refl s) h
        exact ⟨_, hw.trans (ofList_reverse_cons _ _ _), hback.cons fun _ => rfl⟩
      rw [escaped_cons_of_ne hquote, List.cons_append] at h
      by_cases hline : isLineEnd c = true
      · rw [readQuoted_lineEnd hquote hline] at h
        cases h
      by_cases hslash : c = '\\'
      · subst hslash
        cases s with
        | nil =>
          rw [readQuoted_unclosed (Nat.zero_lt_of_lt (Nat.lt_of_succ_lt_succ hfuel))] at h
          cases h
          exact ⟨['"', ']'], by simp, .unclosed rfl rfl⟩
        | cons d s =>
          have hd : d ≠ '"' := by
            rintro rfl
            exact hsafe ⟨[], s, rfl⟩
          exact readBack_of_slash hd
            (fun z acc hz => hpart z acc (hz.trans (List.suffix_cons d s))) h
      rw [Bool.not_eq_true] at hline
      rw [readQuoted_plain hquote hline hslash] at h
      obtain ⟨w, hw, hback⟩ := hpart s _ (List.suffix_refl s) h
      refine ⟨_, hw.trans (ofList_reverse_cons _ _ _), hback.cons fun hc => ?_⟩
      refine isVerbatim_iff.mpr ⟨⟨hslash, ?_⟩, hline⟩
      rintro rfl
      exact absurd hc (by decide)

/-! ### The selector -/

/-- The selector of an id. -/
def idIs (id : String) : Selector := .one [.attribute ⟨false, "id", some ⟨.equals, id, .exact⟩⟩]

/-- What the reader of strings makes of a value that is written in quotes. -/
def quotedValue (s : List Char) : Option String × List Char :=
  readQuoted '"' ((escaped s ++ closing).length + 1) [] (escaped s ++ closing)

theorem length_lt_fuel (s : List Char) : s.length < (escaped s ++ closing).length + 1 := by
  have h : s.length ≤ (escaped s).length := by
    induction s with
    | nil => exact Nat.le_refl 0
    | cons c s ih =>
      rw [escaped, List.flatMap_cons, ← escaped, List.length_append, List.length_cons]
      split <;> simp <;> omega
  rw [List.length_append]
  omega

theorem plainToken_quote_of_some {value : String} {r : List Char}
    (h : quotedValue s = (some value, r)) :
    plainToken '"' (escaped s ++ closing) = (.quoted value, r) := by
  rw [plainToken, if_pos (by decide), ← quotedValue, h]

theorem plainToken_quote_of_none {r : List Char} (h : quotedValue s = (none, r)) :
    plainToken '"' (escaped s ++ closing) = (.broken, r) := by
  rw [plainToken, if_pos (by decide), ← quotedValue, h]

/-- The tokens of the selector: a bracket with the attribute's name and what its value is read as,
and perhaps more in the bracket and after it. -/
theorem exists_tokens_quotedText {t : Token} {r : List Char}
    (h : plainToken '"' (escaped s ++ closing) = (t, r)) :
    ∃ n, tokens (quotedText s) =
      (readTokens (n + 5) none
        [.block .square (readTokens (n + 2) (some ']') [t, .sign '=', .ident "id"] r).1]
        (readTokens (n + 2) (some ']') [t, .sign '=', .ident "id"] r).2).1 := by
  obtain ⟨rfl, rfl⟩ := Prod.ext_iff.mp h
  exact ⟨(escaped s ++ closing).length, rfl⟩

theorem parse?_quotedText_of_some {value : String} {r : List Char}
    (h : quotedValue s = (some value, r)) (hr : r = [']'] ∨ r = []) :
    parse? (quotedText s) = some [idIs value] := by
  obtain ⟨n, hn⟩ := exists_tokens_quotedText (plainToken_quote_of_some h)
  have htokens : tokens (quotedText s) =
      [.block .square [.ident "id", .sign '=', .quoted value]] := by
    rw [hn]
    rcases hr with rfl | rfl <;> rfl
  rw [parse?, htokens]
  rfl

theorem parse?_quotedText_of_none {r : List Char} (h : quotedValue s = (none, r)) :
    parse? (quotedText s) = none := by
  obtain ⟨n, hn⟩ := exists_tokens_quotedText (plainToken_quote_of_none h)
  rw [parse?, hn, readTokens_acc, readTokens_acc]
  exact readList?_append [_] (by simp) (fun inner p => readCompound?_block rfl p) _ _

/-- A value of which each character stands for itself is read back. -/
theorem parse?_quotedText_of_isVerbatim (hs : ∀ c ∈ s, isVerbatim c = true) :
    parse? (quotedText s) = some [idIs (String.ofList s)] :=
  parse?_quotedText_of_some (readQuoted_escaped_of_isVerbatim hs (length_lt_fuel s)) (.inl rfl)

/-- **A value with a character that does not stand for itself** makes no selector, or one of another
value, if no quote in it follows on a backslash. -/
theorem parse?_quotedText_of_not_isVerbatim (hsafe : ¬ ['\\', '"'] <:+: s)
    (hs : ∃ c ∈ s, isVerbatim c = false) :
    parse? (quotedText s) = none ∨
      ∃ other, other ≠ s ∧ parse? (quotedText s) = some [idIs (String.ofList other)] := by
  cases hvalue : quotedValue s with
  | mk value? r =>
    cases value? with
    | none => exact .inl (parse?_quotedText_of_none hvalue)
    | some value =>
      obtain ⟨w, rfl, hread⟩ := readBack_of_readQuoted hsafe (length_lt_fuel s) hvalue
      exact .inr ⟨w, hread.ne hs, parse?_quotedText_of_some hvalue hread.rest_eq⟩

end Scrape.Css
