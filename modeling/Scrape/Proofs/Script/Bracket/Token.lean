import Scrape.Proofs.Script.Bracket.Measure
import Scrape.Proofs.Text.Find
import Scrape.Script.Token

/-!
# Script — Bracket — Token

What is read of a script token by token, and what the measure makes of it.  A token that is neither
a bracket nor the quote of a template leads to the text after it (`leads_of_readToken?`).
-/

namespace Scrape.Script

open Nesting
open Scrape.Text (after? continuesName digitValue? digitsValue? isDigit readNat? startsName)

/-! ### Characters without meaning -/

theorem not_mem_marked {p : Char → Bool} (hp : (marked.all fun c => !p c) = true) {c : Char}
    (hc : p c = true) : c ∉ marked := by
  intro hmem
  have := List.all_eq_true.mp hp c hmem
  rw [hc] at this
  cases this

theorem not_marked_of_continuesName {c : Char} (h : continuesName c = true) : c ∉ marked :=
  not_mem_marked (by decide) h

theorem not_marked_of_startsName {c : Char} (h : startsName c = true) : c ∉ marked :=
  not_mem_marked (by decide) h

theorem not_marked_of_isDigit {c : Char} (h : isDigit c = true) : c ∉ marked :=
  not_mem_marked (by decide) h

theorem not_marked_of_digitValue? {radix : Nat} {c : Char} (h : (digitValue? radix c).isSome) :
    c ∉ marked := by
  refine not_mem_marked (p := fun c => (digitValue? radix c).isSome) ?_ h
  simp [marked, digitValue?]

/-! ### Numbers -/

theorem leads_of_readRadixDigits (radix : Nat) (s : List Char) :
    Leads s (readRadixDigits radix s).2 := by
  refine Leads.span (fun c hc => ?_) s
  rw [Bool.or_eq_true] at hc
  rcases hc with hc | hc
  · exact not_marked_of_digitValue? hc
  · rw [of_decide_eq_true hc]
    decide

/-- A token that is no mark of punctuation, and not the quote of a template. -/
def Token.IsValue : Token → Prop
  | .punct _ | .backquote => False
  | _                     => True

theorem leads_of_endNumber? {value : Number} {big : Bool} {s r : List Char} {t : Token}
    (h : endNumber? value big s = some (t, r)) : t.IsValue ∧ Leads s r := by
  unfold endNumber? at h
  split at h
  next token rest heq =>
    have hrest : token.IsValue ∧ Leads s rest := by
      split at heq
      · cases heq
        exact ⟨trivial, .cons (by decide) (.refl _)⟩
      · cases heq
        exact ⟨trivial, .refl _⟩
    split at h
    · cases h
    · cases h
      exact hrest

theorem leads_of_readRadix? {radix : Nat} {s r : List Char} {t : Token}
    (h : readRadix? radix s = some (t, r)) : t.IsValue ∧ Leads s r := by
  have hdigits := leads_of_readRadixDigits radix s
  simp only [readRadix?] at h
  split at h
  · obtain ⟨hvalue, hr⟩ := leads_of_endNumber? h
    exact ⟨hvalue, hdigits.trans hr⟩
  · cases h

theorem leads_of_readExponent? {s r : List Char} {e : Option Int}
    (h : readExponent? s = some (e, r)) : Leads s r := by
  unfold readExponent? at h
  split at h
  · next c after =>
    split at h
    · next hc =>
      have hmark : c ∉ marked := by
        rw [Bool.or_eq_true, decide_eq_true_eq, decide_eq_true_eq] at hc
        rcases hc with rfl | rfl
        all_goals decide
      split at h
      next negative digits hsign =>
        have hdigits : Leads after digits := by
          split at hsign
          · cases hsign
            exact .cons (by decide) (.refl _)
          · cases hsign
            exact .cons (by decide) (.refl _)
          · cases hsign
            exact .refl _
        obtain ⟨n, -, hn⟩ := Option.map_eq_some_iff.mp h
        obtain ⟨-, rfl⟩ := Prod.mk.inj hn
        exact .cons hmark (hdigits.trans (leads_of_readRadixDigits 10 digits))
    · cases h
      exact .refl _
  · cases h
    exact .refl _

theorem leads_of_readDecimal? {s r : List Char} {t : Token} (h : readDecimal? s = some (t, r)) :
    t.IsValue ∧ Leads s r := by
  have hwhole := leads_of_readRadixDigits 10 s
  unfold readDecimal? at h
  dsimp only at h
  split at h
  · cases h
  · next hexponent =>
    obtain ⟨hvalue, hend⟩ := leads_of_endNumber? h
    refine ⟨hvalue, hwhole.trans (Leads.trans ?_ hend)⟩
    have hplaces := leads_of_readExponent? hexponent
    split at hplaces
    · next after hafter =>
      rw [hafter]
      exact .cons (by decide) ((leads_of_readRadixDigits 10 after).trans hplaces)
    · exact hplaces

theorem leads_of_readNumber? {s r : List Char} {t : Token} (h : readNumber? s = some (t, r)) :
    t.IsValue ∧ Leads s r := by
  unfold readNumber? at h
  split at h
  · next c rest =>
    have hradix : ∀ {radix : Nat}, c ∉ marked → readRadix? radix rest = some (t, r) →
        t.IsValue ∧ Leads ('0' :: c :: rest) r := fun hc h => by
      obtain ⟨hvalue, hrest⟩ := leads_of_readRadix? h
      exact ⟨hvalue, .cons (by decide) (.cons hc hrest)⟩
    have hletter : ∀ {a b : Char}, a ∉ marked → b ∉ marked →
        (decide (c = a) || decide (c = b)) = true → c ∉ marked := by
      intro a b ha hb h
      rw [Bool.or_eq_true, decide_eq_true_eq, decide_eq_true_eq] at h
      rcases h with rfl | rfl
      · exact ha
      · exact hb
    split at h
    · next hc => exact hradix (hletter (by decide) (by decide) hc) h
    · split at h
      · next hc => exact hradix (hletter (by decide) (by decide) hc) h
      · split at h
        · next hc => exact hradix (hletter (by decide) (by decide) hc) h
        · split at h
          · dsimp only at h
            split at h
            · obtain ⟨hvalue, hrest⟩ := leads_of_endNumber? h
              have hdigits := Leads.span (fun _ => not_marked_of_isDigit) (c :: rest)
              rw [List.span_eq_takeWhile_dropWhile] at hdigits
              exact ⟨hvalue, .cons (by decide) (hdigits.trans hrest)⟩
            · exact leads_of_readDecimal? h
          · exact leads_of_readDecimal? h
  · exact leads_of_readDecimal? h

/-! ### Names -/

theorem isSome_of_digitsValue? {radix acc n : Nat} {digits : List Char}
    (h : digitsValue? radix acc digits = some n) : ∀ c ∈ digits, (digitValue? radix c).isSome := by
  induction digits generalizing acc with
  | nil => simp
  | cons c digits ih =>
    rw [digitsValue?] at h
    split at h
    · next d hd => exact List.forall_mem_cons.mpr ⟨by rw [hd]; rfl, ih h⟩
    · cases h

theorem isSome_of_readNat? {radix n : Nat} {digits : List Char}
    (h : readNat? radix digits = some n) : ∀ c ∈ digits, (digitValue? radix c).isSome := by
  rw [readNat?] at h
  split at h
  · cases h
  · exact isSome_of_digitsValue? h

theorem exists_of_readHexDigits? {count n : Nat} {s r : List Char}
    (h : readHexDigits? count s = some (n, r)) :
    ∃ digits, (∀ c ∈ digits, (digitValue? 16 c).isSome) ∧ s = digits ++ r := by
  unfold readHexDigits? at h
  split at h
  · cases h
  · obtain ⟨n', hn, heq⟩ := Option.map_eq_some_iff.mp h
    obtain ⟨-, rfl⟩ := Prod.mk.inj heq
    exact ⟨s.take count, isSome_of_readNat? hn, (List.take_append_drop count s).symm⟩

/-- The code point of an escape is written in digits, which may stand in braces. -/
theorem exists_of_readUnicodePoint? {n : Nat} {s r : List Char}
    (h : readUnicodePoint? s = some (n, r)) :
    ∃ digits, (∀ c ∈ digits, (digitValue? 16 c).isSome) ∧
      (s = digits ++ r ∨ s = '\x7b' :: (digits ++ '\x7d' :: r)) := by
  unfold readUnicodePoint? at h
  split at h
  · next s =>
    unfold readBracedPoint? at h
    split at h
    · next digits c rest hspan =>
      obtain ⟨m, hm, hr⟩ := Option.bind_eq_some_iff.mp h
      rw [List.span_eq_takeWhile_dropWhile] at hspan
      obtain ⟨hdigits, hrest⟩ := Prod.mk.inj hspan
      have hc : c = '\x7d' := by
        have := List.head?_dropWhile_not (fun c => decide (c ≠ '\x7d')) s
        rw [hrest] at this
        simpa using this
      have hs := List.takeWhile_append_dropWhile (p := fun c => decide (c ≠ '\x7d')) (l := s)
      rw [hdigits, hrest, hc] at hs
      split at hr
      · obtain ⟨-, rfl⟩ := Prod.mk.inj (Option.some.inj hr)
        exact ⟨digits, isSome_of_readNat? hm, .inr (by rw [hs])⟩
      · cases hr
    · cases h
  · obtain ⟨digits, hdigits, hs⟩ := exists_of_readHexDigits? h
    exact ⟨digits, hdigits, .inl hs⟩

theorem leads_of_digits {radix : Nat} {digits : List Char}
    (h : ∀ c ∈ digits, (digitValue? radix c).isSome) (s : List Char) : Leads (digits ++ s) s :=
  Leads.append (fun c hc => not_marked_of_digitValue? (h c hc)) s

theorem leads_of_readUnicodePoint? {n : Nat} {s r : List Char}
    (h : readUnicodePoint? s = some (n, r)) : Leads s r := by
  obtain ⟨digits, hdigits, rfl | rfl⟩ := exists_of_readUnicodePoint? h
  · exact leads_of_digits hdigits r
  · exact .enclosed (by decide) (by decide) (by decide) (leads_of_digits hdigits _)

theorem leads_of_readNameFrom? {fuel : Nat} {acc s name r : List Char}
    (h : readNameFrom? fuel acc s = some (name, r)) : Leads s r := by
  induction fuel generalizing acc s with
  | zero => cases h
  | succ fuel ih =>
    cases s with
    | nil =>
      cases h
      exact .refl _
    | cons c s =>
      unfold readNameFrom? at h
      generalize hgood : (fun d => if acc.isEmpty = true then startsName d else continuesName d) =
        good at h
      have hmark : ∀ d, good d = true → d ∉ marked := by
        intro d hd
        rw [← hgood] at hd
        dsimp only at hd
        split at hd
        · exact not_marked_of_startsName hd
        · exact not_marked_of_continuesName hd
      dsimp only at h
      split at h
      · next hc =>
        subst hc
        split at h
        · split at h
          · next hpoint =>
            split at h
            · exact .cons (by decide) (.cons (by decide)
                ((leads_of_readUnicodePoint? hpoint).trans (ih h)))
            · cases h
          · cases h
        · cases h
      · split at h
        · next hc => exact .cons (hmark c hc) (ih h)
        · cases h
          exact .refl _

theorem leads_of_readName? {s r : List Char} {name : String}
    (h : readName? s = some (name, r)) : Leads s r := by
  unfold readName? at h
  split at h
  · next hname =>
    split at h
    · cases h
    · cases h
      exact leads_of_readNameFrom? hname
  · cases h

/-! ### Strings -/

section

variable {o : Open} {q : Char}

/-- What is in quotes is passed over. -/
theorem measure_quoted_append {w : List Char} (hw : ∀ c ∈ w, c ≠ '\\' ∧ c ≠ q) (s : List Char) :
    Nesting.measure (.quoted q) o (w ++ s) = Nesting.measure (.quoted q) o s := by
  induction w with
  | nil => rfl
  | cons c w ih =>
    rw [List.forall_mem_cons] at hw
    rw [List.cons_append, measure_quoted fun _ _ h _ => hw.1.1 h, if_neg hw.1.2, ih hw.2]

/-- The characters that mean nothing in quotes. -/
def Unquoting (w : List Char) : Prop := ∀ c ∈ w, c ≠ '\\' ∧ c ≠ '"' ∧ c ≠ '\''

theorem unquoting_of_digits {radix : Nat} {digits : List Char}
    (h : ∀ c ∈ digits, (digitValue? radix c).isSome) : Unquoting digits := by
  intro c hc
  have hmarks := not_marked_of_digitValue? (h c hc)
  simp only [marked, List.mem_cons, not_or] at hmarks
  refine ⟨?_, hmarks.1, hmarks.2.1⟩
  rintro rfl
  have := h _ hc
  simp [digitValue?] at this

/-- The digits of an octal escape. -/
theorem exists_of_readOctal {c : Char} (hc : (decide ('0' ≤ c) && decide (c ≤ '7')) = true)
    (r : List Char) : ∃ w, r = w ++ (readOctal (c :: r)).2 ∧ Unquoting w := by
  have hdigits : (c :: r).takeWhile (fun d => decide ('0' ≤ d) && decide (d ≤ '7')) =
      c :: r.takeWhile (fun d => decide ('0' ≤ d) && decide (d ≤ '7')) := by
    rw [List.takeWhile_cons, if_pos hc]
  have hdrop : ∃ k, k ≤ (r.takeWhile fun d => decide ('0' ≤ d) && decide (d ≤ '7')).length ∧
      (readOctal (c :: r)).2 = r.drop k := by
    rw [readOctal, hdigits]
    dsimp only
    split
    · next h =>
      simp only [List.length_cons, Bool.and_eq_true, decide_eq_true_eq] at h
      exact ⟨2, by omega, rfl⟩
    · have hcount : ∀ n, min 2 (n + 1) = min 1 n + 1 := fun n => by omega
      exact ⟨min 1 _, Nat.min_le_right 1 _, by rw [List.length_cons, hcount]; rfl⟩
  obtain ⟨k, hk, hrest⟩ := hdrop
  refine ⟨r.take k, by rw [hrest, List.take_append_drop], fun d hd => ?_⟩
  have hoctal : d ∈ r.takeWhile fun d => decide ('0' ≤ d) && decide (d ≤ '7') := by
    obtain ⟨t, ht⟩ := List.takeWhile_prefix (fun d => decide ('0' ≤ d) && decide (d ≤ '7')) (l := r)
    rw [← ht, List.take_append_of_le_length hk] at hd
    exact List.mem_of_mem_take hd
  have hd := List.mem_takeWhile_imp hoctal
  refine ⟨?_, ?_, ?_⟩
  all_goals
    rintro rfl
    exact absurd hd (by decide)

/-- What is left of an escape after the character behind its backslash is no quote. -/
theorem exists_of_readEscape? {s r : List Char} {points : List Nat}
    (h : readEscape? s = some (points, r)) : ∃ c w, s = c :: (w ++ r) ∧ Unquoting w := by
  have hnil : Unquoting [] := by simp [Unquoting]
  unfold readEscape? at h
  split at h
  · cases h
  · cases h
    exact ⟨_, [], rfl, hnil⟩
  · cases h
    exact ⟨_, [], rfl, hnil⟩
  · cases h
    exact ⟨_, [], rfl, hnil⟩
  · cases h
    exact ⟨_, [], rfl, hnil⟩
  · cases h
    exact ⟨_, [], rfl, hnil⟩
  · cases h
    exact ⟨_, [], rfl, hnil⟩
  · obtain ⟨found, hfound, heq⟩ := Option.map_eq_some_iff.mp h
    obtain ⟨-, rfl⟩ := Prod.mk.inj heq
    obtain ⟨digits, hdigits, rfl⟩ := exists_of_readHexDigits? hfound
    exact ⟨_, digits, rfl, unquoting_of_digits hdigits⟩
  · obtain ⟨found, hfound, heq⟩ := Option.map_eq_some_iff.mp h
    obtain ⟨-, rfl⟩ := Prod.mk.inj heq
    obtain ⟨digits, hdigits, rfl | rfl⟩ := exists_of_readUnicodePoint? hfound
    · exact ⟨_, digits, rfl, unquoting_of_digits hdigits⟩
    · refine ⟨'u', '\x7b' :: (digits ++ ['\x7d']), by simp, ?_⟩
      intro c hc
      simp only [List.mem_cons, List.mem_append, List.not_mem_nil, or_false] at hc
      rcases hc with rfl | hc | rfl
      · decide
      · exact unquoting_of_digits hdigits c hc
      · decide
  · cases h
    exact ⟨_, ['\n'], rfl, by simp [Unquoting]⟩
  · split at h
    · cases h
      exact ⟨_, [], rfl, hnil⟩
    · split at h
      · next hoctal =>
        cases h
        obtain ⟨w, hw, hunquoting⟩ := exists_of_readOctal hoctal _
        exact ⟨_, w, congrArg (List.cons _) hw, hunquoting⟩
      · cases h
        exact ⟨_, [], rfl, hnil⟩

theorem measure_of_readString? (hq : q = '"' ∨ q = '\'') {fuel : Nat} {points : List Nat}
    {s r : List Char} {t : String} (h : readString? q fuel points s = some (t, r)) :
    r <:+ s ∧ ∀ o, Nesting.measure (.quoted q) o s = Nesting.measure .code o r := by
  induction fuel generalizing points s with
  | zero => cases h
  | succ fuel ih =>
    cases s with
    | nil => cases h
    | cons c s =>
      rw [readString?] at h
      split at h
      · next hc =>
        cases h
        have hescape : c ≠ '\\' := by
          rcases hq with rfl | rfl
          all_goals
            rw [hc]
            decide
        exact ⟨List.suffix_cons _ _, fun o => by
          rw [measure_quoted fun _ _ h _ => hescape h, if_pos hc]⟩
      · next hc =>
        split at h
        · next hescape =>
          subst hescape
          split at h
          · next hread =>
            obtain ⟨d, w, rfl, hw⟩ := exists_of_readEscape? hread
            obtain ⟨hsuffix, hmeasure⟩ := ih h
            have hw' : ∀ c ∈ w, c ≠ '\\' ∧ c ≠ q := fun c hc => by
              obtain ⟨hescape, hdouble, hsingle⟩ := hw c hc
              rcases hq with rfl | rfl
              · exact ⟨hescape, hdouble⟩
              · exact ⟨hescape, hsingle⟩
            refine ⟨((hsuffix.trans (List.suffix_append w _)).trans (List.suffix_cons d _)).trans
              (List.suffix_cons _ _), fun o => ?_⟩
            rw [Nesting.measure, measure_quoted_append hw', hmeasure]
          · cases h
        · next hescape =>
          split at h
          · cases h
          · obtain ⟨hsuffix, hmeasure⟩ := ih h
            refine ⟨hsuffix.trans (List.suffix_cons c s), fun o => ?_⟩
            rw [measure_quoted fun _ _ h _ => hescape h, if_neg hc, hmeasure]

end

/-! ### Blanks and comments -/

/-- No comment starts here. -/
def NoComment (s : List Char) : Prop := ∀ r, s ≠ '/' :: '/' :: r ∧ s ≠ '/' :: '*' :: r

/-- Whether there is something in a text that ends a line, or starts or ends a comment, for the
readers and not for the measure. -/
structure Regular (s : List Char) : Prop where
  carriage : ∀ r, '\r' :: r <:+ s → r.head? = some '\n'
  line : Char.ofNat 0x2028 ∉ s
  paragraph : Char.ofNat 0x2029 ∉ s
  opening : ¬ "<!--".toList <:+: s
  closing : ¬ "-->".toList <:+: s

theorem Regular.of_suffix {s t : List Char} (h : Regular t) (hs : s <:+ t) : Regular s where
  carriage r hr := h.carriage r (hr.trans hs)
  line hmem := h.line (hs.subset hmem)
  paragraph hmem := h.paragraph (hs.subset hmem)
  opening hmark := h.opening (hmark.trans hs.isInfix)
  closing hmark := h.closing (hmark.trans hs.isInfix)

theorem measure_lineComment_append {o : Open} {w : List Char} (hw : '\n' ∉ w) (s : List Char) :
    Nesting.measure .lineComment o (w ++ s) = Nesting.measure .lineComment o s := by
  induction w with
  | nil => rfl
  | cons c w ih =>
    obtain ⟨hc, hw⟩ := List.ne_and_not_mem_of_not_mem_cons hw
    rw [List.cons_append, Nesting.measure, if_neg (Ne.symm hc), ih hw]

/-- A comment to the end of the line leads to what ends the line. -/
theorem leads_of_lineComment {s : List Char} (hs : Regular s) :
    Leads ('/' :: '/' :: s) (s.dropWhile fun c => !isLineEnd c) := by
  have hsuffix := List.dropWhile_suffix (fun c => !isLineEnd c) (l := s)
  refine ⟨(hsuffix.trans (List.suffix_cons _ _)).trans (List.suffix_cons _ _), fun marks hm => ?_⟩
  have hw : '\n' ∉ s.takeWhile fun c => !isLineEnd c := fun hmem =>
    absurd (List.mem_takeWhile_imp hmem) (by decide)
  have hline := measure_lineComment_append (o := .of marks) hw (s.dropWhile fun c => !isLineEnd c)
  rw [List.takeWhile_append_dropWhile] at hline
  rw [reach_lineComment hm, hline]
  have hend := List.head?_dropWhile_not (fun c => !isLineEnd c) s
  cases ht : s.dropWhile fun c => !isLineEnd c with
  | nil => exact Nat.le_refl _
  | cons c r =>
    rw [ht] at hsuffix hend
    have hmem := hsuffix.subset List.mem_cons_self
    have hc : c = '\n' ∨ c = '\r' ∨ c = Char.ofNat 0x2028 ∨ c = Char.ofNat 0x2029 := by
      have hchar : ∀ n, c.toNat = n → c = Char.ofNat n := fun n h => by rw [← h, Char.ofNat_toNat]
      simp only [List.head?_cons, Bool.not_eq_eq_eq_not, Bool.not_false, isLineEnd, Bool.or_eq_true,
        decide_eq_true_eq] at hend
      rcases hend with ((h | h) | h) | h
      · exact .inl h
      · exact .inr (.inl h)
      · exact .inr (.inr (.inl (hchar _ h)))
      · exact .inr (.inr (.inr (hchar _ h)))
    rcases hc with rfl | rfl | rfl | rfl
    · rw [reach_of_not_marked hm (by decide), Nesting.measure, if_pos rfl]
      exact Nat.le_refl _
    · have hnext := hs.carriage r hsuffix
      cases r with
      | nil => cases hnext
      | cons d r =>
        obtain rfl : d = '\n' := Option.some.inj hnext
        rw [reach_of_not_marked hm (by decide), reach_of_not_marked hm (by decide),
          Nesting.measure, if_neg (by decide), Nesting.measure, if_pos rfl]
        exact Nat.le_refl _
    · exact absurd hmem hs.line
    · exact absurd hmem hs.paragraph

theorem measure_comment_of_cutAfter? {o : Open} {seen s comment r : List Char} {star : Bool}
    (h : Text.cutAfter? ['*', '/'] seen s = some (comment, r))
    (hstar : star = true → s.head? ≠ some '/') :
    Nesting.measure (.comment star) o s = Nesting.measure .code o r := by
  induction s generalizing seen star with
  | nil => cases h
  | cons c s ih =>
    have hopen : ¬ (star && decide (c = '/')) = true := by
      intro h
      obtain ⟨hs, hc⟩ := by simpa using h
      exact hstar hs (by rw [hc]; rfl)
    rw [Text.cutAfter?] at h
    rw [Nesting.measure, if_neg hopen]
    split at h
    · next rest hrest =>
      cases h
      obtain ⟨rfl, rfl⟩ := List.cons.inj (Text.after?_eq_some_iff.mp hrest)
      rfl
    · next hnone =>
      refine ih h fun hc hs => ?_
      obtain ⟨t, rfl⟩ : ∃ t, s = '/' :: t := List.head?_eq_some_iff.mp hs
      rw [of_decide_eq_true hc] at hnone
      simp [after?] at hnone

/-- A comment leads to what follows it. -/
theorem leads_of_comment {s comment r : List Char}
    (h : Text.cut? ['*', '/'] s = some (comment, r)) : Leads ('/' :: '*' :: s) r := by
  have hsuffix : r <:+ s := ⟨comment ++ ['*', '/'], (Text.eq_append_of_cut? h).symm⟩
  refine ⟨(hsuffix.trans (List.suffix_cons _ _)).trans (List.suffix_cons _ _), fun marks hm => ?_⟩
  rw [reach_comment hm, measure_comment_of_cutAfter? h (by simp)]
  exact Nat.le_refl _

theorem leads_of_skipBlanks? {fuel : Nat} {newline : Bool} {s r : List Char} {found : Bool}
    (hs : Regular s) (h : skipBlanks? fuel newline s = some (found, r)) :
    Leads s r ∧ (s.length < fuel → NoComment r) := by
  induction fuel generalizing newline s with
  | zero =>
    cases h
    exact ⟨.refl _, fun h => absurd h (Nat.not_lt_zero _)⟩
  | succ fuel ih =>
    have hnext : ∀ {t : List Char} {newline : Bool}, Leads s t → t.length < s.length →
        skipBlanks? fuel newline t = some (found, r) →
        Leads s r ∧ (s.length < fuel + 1 → NoComment r) := by
      intro t newline ht hlength h
      obtain ⟨hr, hno⟩ := ih (hs.of_suffix ht.suffix) h
      exact ⟨ht.trans hr, fun hfuel => hno (by omega)⟩
    unfold skipBlanks? at h
    split at h
    · cases h
      exact ⟨.refl _, fun _ r => by simp⟩
    · next s =>
      have hline := leads_of_lineComment (hs.of_suffix ⟨['/', '/'], rfl⟩)
      have hlength := (List.dropWhile_suffix (fun c => !isLineEnd c) (l := s)).length_le
      exact hnext hline (by simp; omega) h
    · next s => exact absurd ⟨[], s, rfl⟩ hs.opening
    · split at h
      · next hcut =>
        have := Text.length_cut? hcut
        exact hnext (leads_of_comment hcut) (by simp at this ⊢; omega) h
      · cases h
    · next s => exact absurd ⟨[], s, rfl⟩ hs.closing
    · next hline _ hcomment _ =>
      split at h
      · next hc =>
        have hmark := not_mem_marked (p := isLineEnd) (by decide) hc
        exact hnext (.cons hmark (.refl _)) (Nat.lt_succ_self _) h
      · split at h
        · next hc =>
          have hmark := not_mem_marked (p := isSpace) (by decide) hc
          exact hnext (.cons hmark (.refl _)) (Nat.lt_succ_self _) h
        · cases h
          refine ⟨.refl _, fun _ t => ⟨fun heq => ?_, fun heq => ?_⟩⟩
          · obtain ⟨rfl, rfl⟩ := List.cons.inj heq
            exact hline t rfl rfl
          · obtain ⟨rfl, rfl⟩ := List.cons.inj heq
            exact hcomment t rfl rfl

/-- A slash that starts no comment leads to what follows it. -/
theorem leads_of_slash {s : List Char} (hs : NoComment ('/' :: s)) : Leads ('/' :: s) s := by
  refine ⟨List.suffix_cons _ _, fun marks hm => ?_⟩
  have hhead : ∀ c, c = '/' ∨ c = '*' → s.head? ≠ some c := by
    intro c hc hr
    obtain ⟨t, rfl⟩ := List.head?_eq_some_iff.mp hr
    rcases hc with rfl | rfl
    · exact (hs t).1 rfl
    · exact (hs t).2 rfl
  rw [reach_slash hm ⟨hhead _ (.inl rfl), hhead _ (.inr rfl)⟩]

/-! ### Tokens -/

/-- The marks of punctuation that are brackets. -/
def brackets : List String := ["(", ")", "[", "]", "\x7b", "\x7d"]

/-- A token that the measure passes: no bracket, and not the quote of a template. -/
def Token.Mute : Token → Prop
  | .punct p   => p ∉ brackets
  | .backquote => False
  | _          => True

instance Token.decidableMute : DecidablePred Token.Mute
  | .punct p     => inferInstanceAs (Decidable (p ∉ brackets))
  | .backquote   => .isFalse id
  | .name _      => .isTrue trivial
  | .number _    => .isTrue trivial
  | .bigInteger  => .isTrue trivial
  | .string _    => .isTrue trivial
  | .privateName => .isTrue trivial
  | .done        => .isTrue trivial

theorem Token.IsValue.mute {t : Token} (h : t.IsValue) : t.Mute := by
  cases t with
  | punct | backquote => exact absurd h id
  | _ => trivial

/-- A mark of punctuation is what the text starts with. -/
theorem eq_append_of_readPunct? {s r : List Char} {p : String} (h : readPunct? s = some (p, r)) :
    p.toList ∈ puncts ∧ s = p.toList ++ r := by
  obtain ⟨⟨q, rest⟩, hfound, heq⟩ := Option.map_eq_some_iff.mp h
  obtain ⟨w, hw, hafter⟩ := List.exists_of_findSome?_eq_some hfound
  obtain ⟨rest', hrest, hpair⟩ := Option.map_eq_some_iff.mp hafter
  obtain ⟨rfl, rfl⟩ := Prod.mk.inj hpair
  have hs := Text.after?_eq_some_iff.mp hrest
  dsimp only at heq
  split at heq
  · next hdot =>
    obtain ⟨rfl, rfl⟩ := Prod.mk.inj heq
    have hw : w = ['?', '.'] := by
      rw [Bool.and_eq_true, decide_eq_true_eq] at hdot
      rw [← String.toList_ofList (l := w), hdot.1]
      rfl
    exact ⟨by decide, by rw [hs, hw]; rfl⟩
  · obtain ⟨rfl, rfl⟩ := Prod.mk.inj heq
    rw [String.toList_ofList]
    exact ⟨hw, hs⟩

theorem leads_of_readPunct? {s r : List Char} {p : String} (hs : NoComment s)
    (hp : (Token.punct p).Mute) (h : readPunct? s = some (p, r)) : Leads s r := by
  obtain ⟨hmem, rfl⟩ := eq_append_of_readPunct? h
  have hkinds : (puncts.all fun w => brackets.contains (String.ofList w) || w == ['/'] ||
      w == ['/', '='] || w.all fun c => decide (c ∉ marked)) = true := by decide
  have hkind := List.all_eq_true.mp hkinds _ hmem
  rw [Bool.or_eq_true, Bool.or_eq_true, Bool.or_eq_true, beq_iff_eq, beq_iff_eq,
    String.ofList_toList, List.contains_iff_mem] at hkind
  rcases hkind with ((hbracket | hslash) | hslash) | hw
  · exact absurd hbracket hp
  · rw [hslash] at hs ⊢
    exact leads_of_slash hs
  · rw [hslash]
    refine ⟨List.suffix_append _ _, fun marks hm => ?_⟩
    rw [List.cons_append, reach_slash hm (by simp), List.singleton_append,
      reach_of_not_marked hm (by decide)]
  · exact Leads.append (by simpa using hw) r

/-- A token is a mark of punctuation, the quote of a template, or leads to what follows it. -/
theorem readToken?_cases {s r : List Char} {t : Token} (h : readToken? s = some (t, r)) :
    (∃ p, t = .punct p ∧ readPunct? s = some (p, r)) ∨ (t = .backquote ∧ s = '\x60' :: r) ∨
      (t.IsValue ∧ Leads s r) := by
  unfold readToken? at h
  split at h
  · cases h
    exact .inr (.inr ⟨trivial, .refl _⟩)
  · next c rest =>
    split at h
    · next hc =>
      rw [Bool.or_eq_true, decide_eq_true_eq, decide_eq_true_eq] at hc
      obtain ⟨found, hstring, heq⟩ := Option.map_eq_some_iff.mp h
      obtain ⟨rfl, rfl⟩ := Prod.mk.inj heq
      obtain ⟨hsuffix, hmeasure⟩ := measure_of_readString? hc hstring
      refine .inr (.inr ⟨trivial, hsuffix.trans (List.suffix_cons _ _), fun marks hm => ?_⟩)
      rw [reach_quote hm hc, hmeasure]
      exact Nat.le_refl _
    · split at h
      · next hc =>
        cases h
        exact .inr (.inl ⟨rfl, by rw [hc]⟩)
      · split at h
        · exact .inr (.inr (leads_of_readNumber? h))
        · split at h
          · obtain ⟨found, hname, heq⟩ := Option.map_eq_some_iff.mp h
            obtain ⟨rfl, rfl⟩ := Prod.mk.inj heq
            exact .inr (.inr ⟨trivial, leads_of_readName? hname⟩)
          · split at h
            · next hc =>
              obtain ⟨found, hname, heq⟩ := Option.map_eq_some_iff.mp h
              obtain ⟨rfl, rfl⟩ := Prod.mk.inj heq
              refine .inr (.inr ⟨trivial, .cons ?_ (leads_of_readName? hname)⟩)
              rw [hc]
              decide
            · obtain ⟨found, hpunct, heq⟩ := Option.map_eq_some_iff.mp h
              obtain ⟨rfl, rfl⟩ := Prod.mk.inj heq
              exact .inl ⟨_, rfl, hpunct⟩

/-- **A token** that is no bracket and not the quote of a template leads to what follows it. -/
theorem leads_of_readToken? {s r : List Char} {t : Token} (hs : NoComment s) (ht : t.Mute)
    (h : readToken? s = some (t, r)) : Leads s r := by
  rcases readToken?_cases h with ⟨p, rfl, hpunct⟩ | ⟨rfl, -⟩ | ⟨-, hr⟩
  · exact leads_of_readPunct? hs ht hpunct
  · exact absurd ht id
  · exact hr

theorem suffix_of_readToken? {s r : List Char} {t : Token} (h : readToken? s = some (t, r)) :
    r <:+ s := by
  rcases readToken?_cases h with ⟨p, rfl, hpunct⟩ | ⟨rfl, rfl⟩ | ⟨-, hr⟩
  · obtain ⟨-, rfl⟩ := eq_append_of_readPunct? hpunct
    exact List.suffix_append _ _
  · exact List.suffix_cons _ _
  · exact hr.suffix

theorem eq_append_of_readToken? {s r : List Char} {p : String}
    (h : readToken? s = some (.punct p, r)) : s = p.toList ++ r := by
  rcases readToken?_cases h with ⟨q, hq, hpunct⟩ | ⟨hq, -⟩ | ⟨hvalue, -⟩
  · obtain rfl := Token.punct.inj hq
    exact (eq_append_of_readPunct? hpunct).2
  · cases hq
  · exact absurd hvalue id

theorem eq_cons_of_readToken? {s r : List Char} (h : readToken? s = some (.backquote, r)) :
    s = '\x60' :: r := by
  rcases readToken?_cases h with ⟨q, hq, -⟩ | ⟨-, hs⟩ | ⟨hvalue, -⟩
  · cases hq
  · exact hs
  · exact absurd hvalue id

/-! ### Templates and regular expressions -/

/-- **A stretch of a template** leads to where the template is closed, or an expression in it is
opened. -/
theorem reach_of_readTemplate? {good goodHere more : Bool} {acc s r : List Char} {text : String}
    (h : readTemplate? good acc s = some (text, goodHere, more, r)) (marks : List Char) :
    r <:+ s ∧ reach (if more then '\x7b' :: '\x60' :: marks else marks) r ≤
      reach ('\x60' :: marks) s := by
  have ho : (Open.of ('\x60' :: marks)).inTemplate = true := rfl
  fun_induction readTemplate? good acc s with
  | case1 => cases h
  | case2 good acc rest =>
    cases h
    refine ⟨List.suffix_cons _ _, ?_⟩
    rw [reach.eq_1 ('\x60' :: marks), measure_backquote_in_template ho]
    exact reach_le_measure_pop marks '\x60' r
  | case3 good acc rest =>
    cases h
    refine ⟨(List.suffix_cons _ _).trans (List.suffix_cons _ _), ?_⟩
    rw [reach.eq_1 ('\x60' :: marks), measure_brace_in_template ho, push_of]
    exact Nat.le_refl _
  | case4 good acc c rest ih =>
    obtain ⟨hsuffix, hreach⟩ := ih h
    refine ⟨(hsuffix.trans (List.suffix_cons _ _)).trans (List.suffix_cons _ _), ?_⟩
    rw [reach.eq_1 ('\x60' :: marks), measure_escape_in_template ho]
    exact hreach
  | case5 good acc rest ih =>
    obtain ⟨hsuffix, hreach⟩ := ih h
    refine ⟨(hsuffix.trans (List.suffix_cons _ _)).trans (List.suffix_cons _ _), ?_⟩
    rw [reach.eq_1 ('\x60' :: marks), measure_in_template ho (by simp) (by decide) (by simp),
      measure_in_template ho (by simp) (by decide) (by simp)]
    exact hreach
  | case6 good acc rest _ ih =>
    obtain ⟨hsuffix, hreach⟩ := ih h
    refine ⟨hsuffix.trans (List.suffix_cons _ _), ?_⟩
    rw [reach.eq_1 ('\x60' :: marks), measure_in_template ho (by simp) (by decide) (by simp)]
    exact hreach
  | case7 good acc c rest hquote hbrace hescape _ _ ih =>
    obtain ⟨hsuffix, hreach⟩ := ih h
    refine ⟨hsuffix.trans (List.suffix_cons _ _), ?_⟩
    rw [reach.eq_1 ('\x60' :: marks), measure_in_template ho hescape hquote hbrace]
    exact hreach

theorem eq_append_of_readRegexBody? {bracketed : Bool} {acc s body r : List Char}
    (h : readRegexBody? bracketed acc s = some (body, r)) :
    ∃ w, body = acc.reverse ++ w ∧ s = w ++ '/' :: r := by
  fun_induction readRegexBody? bracketed acc s with
  | case1 | case2 | case4 => cases h
  | case3 bracketed acc c s _ ih =>
    obtain ⟨w, rfl, rfl⟩ := ih h
    exact ⟨'\\' :: c :: w, by simp, rfl⟩
  | case5 bracketed acc c s _ _ hc =>
    cases h
    rw [Bool.and_eq_true, decide_eq_true_eq] at hc
    exact ⟨[], by simp, by rw [hc.1]; rfl⟩
  | case6 bracketed acc c s _ _ _ ih =>
    obtain ⟨w, rfl, rfl⟩ := ih h
    exact ⟨c :: w, by simp, rfl⟩

/-- Whether the measure reads a regular expression as what it is: it has no quotes, brackets and
slashes in it, and what follows its slash makes no comment of it. -/
def plainRegex (source flags : String) (r : List Char) : Bool :=
  (source.toList.all fun c => !marked.contains c) &&
    !(flags.isEmpty && (r.head? == some '/' || r.head? == some '*'))

/-- A regular expression that the measure reads as one leads to what follows it. -/
theorem leads_of_readRegex? {s r : List Char} {source flags : String} (hs : NoComment ('/' :: s))
    (h : readRegex? s = some (source, flags, r)) (hplain : plainRegex source flags r = true) :
    Leads ('/' :: s) r := by
  unfold readRegex? at h
  split at h
  · next body rest hbody =>
    obtain ⟨w, hw, rfl⟩ := eq_append_of_readRegexBody? hbody
    rw [List.reverse_nil, List.nil_append] at hw
    subst hw
    rw [List.span_eq_takeWhile_dropWhile] at h
    simp only [Option.some.injEq, Prod.mk.injEq] at h
    obtain ⟨rfl, rfl, rfl⟩ := h
    simp only [plainRegex, String.toList_ofList, Bool.and_eq_true, List.all_eq_true,
      Bool.not_eq_true', List.contains_eq_mem, decide_eq_false_iff_not] at hplain
    obtain ⟨hbody, hend⟩ := hplain
    have hflags : Leads rest (rest.dropWhile continuesName) := by
      have := Leads.span (fun _ => not_marked_of_continuesName) rest
      rwa [List.span_eq_takeWhile_dropWhile] at this
    have hclosing : ∀ {c}, c = '/' ∨ c = '*' → rest.head? ≠ some c := by
      intro c hc hhead
      obtain ⟨t, rfl⟩ := List.head?_eq_some_iff.mp hhead
      have hname : ¬ continuesName c = true := by
        rcases hc with rfl | rfl
        all_goals decide
      rw [List.takeWhile_cons_of_neg hname, List.dropWhile_cons_of_neg hname,
        List.head?_cons] at hend
      rcases hc with rfl | rfl
      all_goals exact absurd hend (by decide)
    refine (leads_of_slash hs).trans ((Leads.append hbody _).trans (Leads.trans ?_ hflags))
    refine leads_of_slash fun t => ⟨fun h => ?_, fun h => ?_⟩
    · exact hclosing (.inl rfl) (by rw [(List.cons.inj h).2]; rfl)
    · exact hclosing (.inr rfl) (by rw [(List.cons.inj h).2]; rfl)
  · cases h

end Scrape.Script
