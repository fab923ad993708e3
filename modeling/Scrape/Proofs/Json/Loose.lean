import Mathlib.Data.List.TakeDrop
import Scrape.Json.Loose

/-!
# Json — Loose, its laws

How the body of a directive is read that has one field, with a key of word characters and a value in
quotes.  The key is put into quotes, and nothing else is changed (`strict_field`); so the text is
the object that it looks like, unless the value holds a control character, which no text of JSON may
hold (`parse?_field`).
-/

namespace Scrape.Json

open Scrape.Text (isBlank isWordChar)

/-! ### What means nothing to the readers -/

/-- A text without quotes, backslashes, braces and commas. -/
def Bare (s : List Char) : Prop := ∀ c ∈ s, c ∉ ['"', '\'', '\\', '\x7b', '\x7d', ',']

instance : DecidablePred Bare := fun s =>
  List.decidableBAll (fun c => c ∉ ['"', '\'', '\\', '\x7b', '\x7d', ',']) s

namespace Bare

variable {c : Char} {s t : List Char}

theorem head (h : Bare (c :: s)) : c ∉ ['"', '\'', '\\', '\x7b', '\x7d', ','] :=
  h c List.mem_cons_self

theorem tail (h : Bare (c :: s)) : Bare s := fun d hd => h d (List.mem_cons_of_mem c hd)

theorem not_mem (h : Bare s) (hc : c ∈ ['"', '\'', '\\', '\x7b', '\x7d', ',']) : c ∉ s :=
  fun hmem => h c hmem hc

theorem of_infix (h : Bare t) (hs : s <:+: t) : Bare s := fun c hc => h c (hs.subset hc)

end Bare

/-- A text without control characters, as JSON asks of what stands in quotes. -/
def Printable (s : List Char) : Prop := ∀ c ∈ s, ¬ c.toNat < 32

instance : DecidablePred Printable := fun s =>
  List.decidableBAll (fun c : Char => ¬ c.toNat < 32) s

/-- A key of word characters, none of which is a blank. -/
structure IsKey (key : List Char) : Prop where
  ne_nil : key ≠ []
  word : ∀ c ∈ key, isWordChar c = true
  blank : ∀ c ∈ key, isBlank c = false

theorem not_control_of_isWordChar {c : Char} (h : isWordChar c = true) : ¬ c.toNat < 32 := by
  intro hlt
  have hascii : Text.isAscii c = true := by
    rw [Text.isAscii, decide_eq_true_eq]
    omega
  have hle : ∀ d : Char, 32 ≤ d.toNat → ¬ d ≤ c := fun d hd hdc => by
    have : d.toNat ≤ c.toNat := hdc
    omega
  rw [isWordChar, if_pos hascii] at h
  simp only [Text.isAsciiLetter, Text.isDigit, hle 'a' (by decide), hle 'A' (by decide),
    hle '0' (by decide), decide_false, Bool.false_and, Bool.or_self, Bool.false_or,
    decide_eq_true_eq] at h
  rw [h] at hlt
  exact absurd hlt (by decide)

namespace IsKey

variable {c : Char} {key : List Char}

theorem not_mem (h : IsKey key) (hc : isWordChar c = false) : c ∉ key := fun hmem => by
  rw [h.word c hmem] at hc
  cases hc

theorem bare (h : IsKey key) : Bare key := by
  intro c hc hmark
  have hword : ∀ d ∈ ['"', '\'', '\\', '\x7b', '\x7d', ','], isWordChar d = false := by
    simp only [List.forall_mem_cons, List.not_mem_nil, false_implies, implies_true, and_true]
    decide
  exact Bool.false_ne_true ((hword c hmark).symm.trans (h.word c hc))

end IsKey

/-! ### Texts in quotes -/

section

variable {fuel : Nat} {s : List Char}

/-- A text in quotes is read to its closing quote. -/
theorem readString?_append (h : ∀ c ∈ s, c ≠ '"' ∧ c ≠ '\\' ∧ ¬ c.toNat < 32)
    (hfuel : s.length < fuel) (acc rest : List Char) :
    readString? fuel acc (s ++ '"' :: rest) = some (String.ofList (acc.reverse ++ s), rest) := by
  induction s generalizing fuel acc with
  | nil =>
    obtain ⟨fuel, rfl⟩ := Nat.exists_eq_add_of_lt hfuel
    simp [readString?]
  | cons c s ih =>
    obtain ⟨fuel, rfl⟩ := Nat.exists_eq_add_of_lt hfuel
    obtain ⟨⟨hquote, hescape, hprint⟩, hs⟩ := List.forall_mem_cons.mp h
    rw [List.cons_append, readString?, if_neg hquote, if_neg hescape, if_neg hprint,
      ih hs (by simp; omega)]
    simp

theorem readString?_of_bare (h : Bare s) (hprint : Printable s)
    (hfuel : s.length < fuel) (acc rest : List Char) :
    readString? fuel acc (s ++ '"' :: rest) = some (String.ofList (acc.reverse ++ s), rest) := by
  refine readString?_append (fun c hc => ?_) hfuel acc rest
  have hmarks := h c hc
  simp only [List.mem_cons, not_or] at hmarks
  exact ⟨hmarks.1, hmarks.2.2.1, hprint c hc⟩

/-- No text in quotes holds a control character. -/
theorem readString?_of_not_printable (h : Bare s) (hprint : ¬ Printable s) (fuel : Nat)
    (acc rest : List Char) : readString? fuel acc (s ++ rest) = none := by
  induction s generalizing fuel acc with
  | nil => exact absurd (fun _ hc => absurd hc List.not_mem_nil) hprint
  | cons c s ih =>
    have hc := h.head
    simp only [List.mem_cons, not_or] at hc
    cases fuel with
    | zero => rfl
    | succ fuel =>
      rw [List.cons_append, readString?, if_neg hc.1, if_neg hc.2.2.1]
      split
      · rfl
      · next hlt =>
        have htail : ¬ Printable s := fun htail => hprint (List.forall_mem_cons.mpr ⟨hlt, htail⟩)
        exact ih h.tail htail fuel (c :: acc)

end

/-! ### The form of JSON -/

namespace Loose

theorem dropCommasFrom_of_absent {s : List Char} (h : ',' ∉ s) (fuel : Nat) :
    dropCommasFrom fuel s = s := by
  induction s generalizing fuel with
  | nil => cases fuel <;> rfl
  | cons c s ih =>
    cases fuel with
    | zero => rfl
    | succ fuel =>
      obtain ⟨hc, hs⟩ := List.ne_and_not_mem_of_not_mem_cons h
      rw [dropCommasFrom, if_neg (Ne.symm hc), ih hs]

theorem quoteKeysFrom_of_absent {s : List Char} (hbrace : '\x7b' ∉ s) (hcomma : ',' ∉ s)
    (fuel : Nat) : quoteKeysFrom fuel s = s := by
  induction s generalizing fuel with
  | nil => cases fuel <;> rfl
  | cons c s ih =>
    cases fuel with
    | zero => rfl
    | succ fuel =>
      obtain ⟨hc, hs⟩ := List.ne_and_not_mem_of_not_mem_cons hbrace
      obtain ⟨hc', hs'⟩ := List.ne_and_not_mem_of_not_mem_cons hcomma
      rw [quoteKeysFrom, if_neg (by simp [Ne.symm hc, Ne.symm hc']), ih hs hs']

end Loose

/-! ### A field in braces -/

/-- A key and a value in quotes. -/
def field (key value : List Char) : List Char := key ++ ':' :: ' ' :: '"' :: (value ++ ['"'])

section

variable {key value : List Char}

theorem Loose.readKey?_field (hkey : IsKey key) (after : List Char) :
    Loose.readKey? (key ++ ':' :: after) = some ([], key, after) := by
  have hcolon : Loose.isKeyChar ':' = false := by decide
  have hblank : isBlank ':' = false := by decide
  have hkeys : ∀ c ∈ key, Loose.isKeyChar c = true := fun c hc => by
    rw [Loose.isKeyChar, hkey.word c hc, Bool.true_or]
  have hstart : (key ++ ':' :: after).span isBlank = ([], key ++ ':' :: after) := by
    obtain ⟨c, k, rfl⟩ := List.exists_cons_of_ne_nil hkey.ne_nil
    simp [List.span_eq_takeWhile_dropWhile, hkey.blank c List.mem_cons_self]
  have hword : (key ++ ':' :: after).span Loose.isKeyChar = (key, ':' :: after) := by
    rw [List.span_eq_takeWhile_dropWhile, List.takeWhile_append_of_pos hkeys,
      List.dropWhile_append_of_pos hkeys]
    simp [hcolon]
  rw [Loose.readKey?, hstart]
  simp only [hword, List.isEmpty_eq_false_iff.mpr hkey.ne_nil, List.dropWhile_cons, hblank,
    if_neg Bool.false_ne_true]

/-- **The form of JSON** of a field in braces has the key in quotes. -/
theorem Loose.strict_field (hkey : IsKey key) (hvalue : Bare value) :
    Loose.strict ('\x7b' :: (field key value ++ ['\x7d'])) =
      '\x7b' :: '"' :: (key ++ '"' :: ':' :: ' ' :: '"' :: (value ++ ['"', '\x7d'])) := by
  have hquotes : ∀ s : List Char, Bare s → s.map (fun c => if c = '\'' then '"' else c) = s := by
    intro s hs
    refine (List.map_congr_left fun c hc => ?_).trans (List.map_id s)
    have hne : c ≠ '\'' := fun h => hs c hc (by rw [h]; decide)
    exact if_neg hne
  have hcommas : ',' ∉ '\x7b' :: (field key value ++ ['\x7d']) := by
    have hk := hkey.bare.not_mem (c := ',') (by decide)
    have hv := hvalue.not_mem (c := ',') (by decide)
    simp [field, hk, hv]
  have hform : ('\x7b' :: (field key value ++ ['\x7d'])).map
      (fun c => if c = '\'' then '"' else c) = '\x7b' :: (field key value ++ ['\x7d']) := by
    simp [field, hquotes key hkey.bare, hquotes value hvalue]
  rw [Loose.strict, hform, Loose.dropCommas, Loose.dropCommasFrom_of_absent hcommas,
    Loose.quoteKeys, List.length_cons, Loose.quoteKeysFrom, if_pos (by decide), field,
    List.append_assoc, List.cons_append, Loose.readKey?_field hkey]
  dsimp only
  rw [Loose.quoteKeysFrom_of_absent]
  · simp
  · simpa using hvalue.not_mem (c := '\x7b') (by decide)
  · simpa using hvalue.not_mem (c := ',') (by decide)

/-! ### Objects -/

theorem skipBlanks_cons_of_not {c : Char} (hc : isJsonBlank c = false) (s : List Char) :
    skipBlanks (c :: s) = c :: s := by
  rw [skipBlanks, List.dropWhile_cons, hc, if_neg Bool.false_ne_true]

theorem readValue?_object {size depth : Nat} {s : List Char}
    (hs : ∀ r, skipBlanks s ≠ '\x7d' :: r) :
    readValue? size (depth + 1) ('\x7b' :: s) =
      (readFields? size (readValue? size depth) size [] (skipBlanks s)).map
        fun (fields, r) => (.object fields, r) := by
  rw [readValue?]
  split
  · next r hr => exact absurd hr (hs r)
  · rfl

theorem readValue?_string (size depth : Nat) (s : List Char) :
    readValue? size depth ('"' :: s) =
      (readString? size [] s).map fun (t, r) => (.string t, r) := by
  rw [readValue?]

theorem readFields?_of_not_quote {size fuel : Nat} {value : Reader}
    {acc : List (String × Json)} {s : List Char} (hs : ∀ r, skipBlanks s ≠ '"' :: r) :
    readFields? size value fuel acc s = none := by
  cases fuel with
  | zero => rfl
  | succ fuel =>
    rw [readFields?]
    split
    · next r hr => exact absurd hr (hs r)
    · rfl

/-- Braces are no JSON before the key that they begin with is put into quotes. -/
theorem parse?_of_isKey (hkey : IsKey key) (after : List Char) :
    parse? ('\x7b' :: (key ++ after)) = none := by
  obtain ⟨c, k, rfl⟩ := List.exists_cons_of_ne_nil hkey.ne_nil
  have hne : ∀ d, isWordChar d = false → c ≠ d := fun d hd h =>
    hkey.not_mem hd (h ▸ List.mem_cons_self)
  have hblank : isJsonBlank c = false := by
    simp [isJsonBlank, hne ' ' (by decide), hne '\n' (by decide), hne '\t' (by decide),
      hne '\r' (by decide)]
  have hstart : skipBlanks (c :: k ++ after) = c :: k ++ after := skipBlanks_cons_of_not hblank _
  have hobject : ∀ r, skipBlanks (c :: k ++ after) ≠ '\x7d' :: r := by
    intro r h
    rw [hstart] at h
    exact hne '\x7d' (by decide) (List.head_eq_of_cons_eq h)
  have hfields : ∀ r, skipBlanks (skipBlanks (c :: k ++ after)) ≠ '"' :: r := by
    intro r h
    rw [hstart, hstart] at h
    exact hne '"' (by decide) (List.head_eq_of_cons_eq h)
  rw [parse?, skipBlanks_cons_of_not (by decide), maxDepth, readValue?_object hobject,
    readFields?_of_not_quote hfields]
  rfl

theorem parse?_field_eq_none (hkey : IsKey key) :
    parse? ('\x7b' :: (field key value ++ ['\x7d'])) = none := by
  rw [field, List.append_assoc]
  exact parse?_of_isKey hkey _

/-- The field of an object is read up to the brace that closes it. -/
theorem readFields?_field (hkey : IsKey key) (hvalue : Bare value) {size : Nat}
    (hsize : key.length + value.length < size) (depth : Nat) :
    readFields? size (readValue? size depth) size []
        ('"' :: (key ++ '"' :: ':' :: ' ' :: '"' :: (value ++ ['"', '\x7d']))) =
      if Printable value then
        some ([(String.ofList key, .string (String.ofList value))], [])
      else none := by
  obtain ⟨fuel, rfl⟩ := Nat.exists_eq_add_of_lt hsize
  have hname := readString?_of_bare hkey.bare
    (fun c hc => not_control_of_isWordChar (hkey.word c hc))
    (show key.length < key.length + value.length + fuel + 1 by omega) []
    (':' :: ' ' :: '"' :: (value ++ ['"', '\x7d']))
  have hcolon : skipBlanks (':' :: ' ' :: '"' :: (value ++ ['"', '\x7d'])) =
      ':' :: ' ' :: '"' :: (value ++ ['"', '\x7d']) := rfl
  have hspace : skipBlanks (' ' :: '"' :: (value ++ ['"', '\x7d'])) =
      '"' :: (value ++ ['"', '\x7d']) := rfl
  rw [readFields?, skipBlanks_cons_of_not (by decide)]
  simp only [hname, hcolon, hspace, readValue?_string]
  by_cases hprint : Printable value
  · rw [if_pos hprint, readString?_of_bare hvalue hprint (by omega) [] ['\x7d']]
    rfl
  · rw [if_neg hprint, readString?_of_not_printable hvalue hprint]
    rfl

/-- **A field in braces** is the object that it looks like, if no character of its value is a
control character, and else it is none. -/
theorem Loose.parse?_field (hkey : IsKey key) (hvalue : Bare value) :
    Loose.parse? ('\x7b' :: (field key value ++ ['\x7d'])) =
      if Printable value then
        some (.object [(String.ofList key, .string (String.ofList value))])
      else none := by
  have hobject : ∀ r, skipBlanks ('"' :: (key ++ '"' :: ':' :: ' ' :: '"' ::
      (value ++ ['"', '\x7d']))) ≠ '\x7d' :: r := by
    intro r h
    rw [skipBlanks_cons_of_not (by decide)] at h
    cases h
  rw [Loose.parse?, parse?_field_eq_none hkey, Option.none_or, Loose.strict_field hkey hvalue,
    Json.parse?, skipBlanks_cons_of_not (by decide), maxDepth, readValue?_object hobject,
    skipBlanks_cons_of_not (by decide), readFields?_field hkey hvalue (by simp; omega)]
  by_cases hprint : Printable value
  · simp only [if_pos hprint]
    rfl
  · simp only [if_neg hprint]
    rfl

end

end Scrape.Json
