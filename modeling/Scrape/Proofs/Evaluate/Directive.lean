import Scrape.Evaluate.Directive
import Scrape.Proofs.Json.Loose
import Scrape.Proofs.Rule.Split

/-!
# Evaluate — Directive, its laws

The directives that put are read off a text from left to right: the first is where their mark first
stands and reaches to the brace that closes it (`putsFrom_of_cut?`), and a text without the mark
has none (`puts_of_absent`).  One that puts the result of a rule in quotes under a key is read as
the pair of the two (`puts_directive`), also where its body is no object because the rule holds a
control character (`pairs_field`).
-/

namespace Scrape.Evaluate

open Scrape.Json (Bare IsKey Printable field)
open Scrape.Text (cut? cut?_eq_none_iff trim)

/-- The pairs of all directives, in the order in which they are put. -/
def Puts.pairs (p : Puts) : List (String × List Char) := p.directives.flatMap Prod.snd

theorem putsFrom_of_absent {s : List Char} (h : ¬ putMark ++ ['\x7b'] <:+: s)
    (found : List (List Char × List (String × List Char))) :
    putsFrom found s = ⟨found.reverse, s⟩ := by
  have hcut := cut?_eq_none_iff.mpr h
  rw [putsFrom]
  split
  · rfl
  · simp_all

theorem puts_of_absent {s : List Char} (h : ¬ putMark ++ ['\x7b'] <:+: s) :
    puts s = ⟨[], s⟩ :=
  putsFrom_of_absent h []

theorem puts_nil : puts [] = ⟨[], []⟩ :=
  puts_of_absent (by rw [List.infix_nil]; simp)

theorem putsFrom_of_cut? {s before rest inside after : List Char}
    (hcut : cut? (putMark ++ ['\x7b']) s = some (before, rest))
    (hclose : closeBrace? 1 none false [] rest = some (inside, after))
    (found : List (List Char × List (String × List Char))) :
    putsFrom found s =
      putsFrom ((before, pairs ('\x7b' :: inside ++ ['\x7d'])) :: found) after := by
  rw [putsFrom]
  split
  · simp_all
  · next before' rest' hcut' =>
    obtain ⟨rfl, rfl⟩ := Prod.mk.inj (Option.some.inj (hcut.symm.trans hcut'))
    split
    · simp_all
    · next inside' after' hclose' =>
      obtain ⟨rfl, rfl⟩ := Prod.mk.inj (Option.some.inj (hclose.symm.trans hclose'))
      rfl

/-- The pair of a text with one directive, which is written as an object with one field. -/
theorem pairs_puts_of_object {s before rest inside after : List Char} {key value : String}
    (hcut : cut? (putMark ++ ['\x7b']) s = some (before, rest))
    (hclose : closeBrace? 1 none false [] rest = some (inside, after))
    (hparse : Json.Loose.parse? ('\x7b' :: inside ++ ['\x7d']) =
      some (.object [(key, .string value)]))
    (hafter : cut? (putMark ++ ['\x7b']) after = none) :
    (puts s).pairs = [(key, value.toList)] := by
  have hpairs : pairs ('\x7b' :: inside ++ ['\x7d']) = [(key, value.toList)] := by
    rw [pairs, hparse]
    rfl
  rw [puts, putsFrom_of_cut? hcut hclose, hpairs,
    putsFrom_of_absent (cut?_eq_none_iff.mp hafter)]
  rfl

/-! ### A directive with one field -/

/-- A directive that puts the result of a rule, in quotes, under a key. -/
def directive (key value : List Char) : List Char :=
  putMark ++ '\x7b' :: (field key value ++ ['\x7d'])

section

variable {key value rest : List Char}

theorem dropWhile_of_bare {p : Char → Bool} {s : List Char} (h : Bare s)
    (hp : ∀ c, p c = true → c ∈ ['"', '\'', '\\', '\x7b', '\x7d', ',']) :
    s.dropWhile p = s := by
  cases s with
  | nil => rfl
  | cons c s => exact List.dropWhile_cons_of_neg fun hc => h.head (hp c hc)

theorem mem_of_isQuote (c : Char) (h : (decide (c = '"') || decide (c = '\'')) = true) :
    c ∈ ['"', '\'', '\\', '\x7b', '\x7d', ','] := by
  rcases (by simpa using h : c = '"' ∨ c = '\'') with rfl | rfl <;> decide

theorem unquoted_of_trim {s t : List Char} (ht : Bare t) (hs : trim s = t) : unquoted s = t := by
  have hreverse : Bare t.reverse := fun c hc => ht c (List.mem_reverse.mp hc)
  rw [unquoted, hs, dropWhile_of_bare ht mem_of_isQuote, dropWhile_of_bare hreverse mem_of_isQuote,
    List.reverse_reverse]

theorem unquoted_of_quoted {s : List Char} (h : Bare s) :
    unquoted (' ' :: '"' :: (s ++ ['"'])) = s := by
  have htrim : trim (' ' :: '"' :: (s ++ ['"'])) = '"' :: (s ++ ['"']) :=
    Text.trim_cons_append (c := '"') (d := '"') (by decide) (by decide) s
  rw [unquoted, htrim]
  cases s with
  | nil => rfl
  | cons c s =>
    have hc := h.head
    simp only [List.mem_cons, not_or] at hc
    have hreverse : Bare (s.reverse ++ [c]) := fun d hd => h d (by simpa [or_comm] using hd)
    simp [hc.1, hc.2.1, dropWhile_of_bare hreverse mem_of_isQuote]

/-- The pair of a field, when it is read without the form of JSON. -/
theorem pair?_field (hkey : IsKey key) (hvalue : Bare value) :
    pair? (field key value) = some (String.ofList key, value) := by
  have hcut : cut? [':'] (field key value) = some (key, ' ' :: '"' :: (value ++ ['"'])) :=
    Text.cut?_append (hkey.not_mem (by decide)) _
  have hne : unquoted key = key := unquoted_of_trim hkey.bare (Text.trim_of_forall hkey.blank)
  rw [pair?, hcut]
  simp only [hne, List.isEmpty_eq_false_iff.mpr hkey.ne_nil, if_neg Bool.false_ne_true,
    unquoted_of_quoted hvalue]

/-- A field is one piece, for it holds no comma. -/
theorem split_field (hkey : IsKey key) (hvalue : Bare value) :
    Rule.split [[',']] (field key value) = [field key value] := by
  have hcomma : ',' ∉ field key value := by
    simp [field, hkey.not_mem (c := ',') (by decide), hvalue.not_mem (c := ',') (by decide)]
  have htrim : trim (field key value) = field key value := by
    obtain ⟨c, k, rfl⟩ := List.exists_cons_of_ne_nil hkey.ne_nil
    have hc := hkey.blank c List.mem_cons_self
    simpa [field] using Text.trim_cons_append (d := '"') hc (by decide)
      (k ++ ':' :: ' ' :: '"' :: value)
  rw [Rule.split_of_whole (Rule.whole_of_apart fun c hc => ?_), htrim]
  rintro hmem
  obtain rfl := List.mem_singleton.mp hmem
  exact hcomma (Rule.mem_of_mem_topLevel hc)

/-- **The pair of a directive** is its key and its rule, whether its body is an object or not. -/
theorem pairs_field (hkey : IsKey key) (hvalue : Bare value) :
    pairs ('\x7b' :: (field key value ++ ['\x7d'])) = [(String.ofList key, value)] := by
  rw [pairs, Json.Loose.parse?_field hkey hvalue]
  by_cases hprint : Printable value
  · simp only [if_pos hprint]
    simp [Json.output]
  · simp only [if_neg hprint]
    obtain ⟨c, k, rfl⟩ := List.exists_cons_of_ne_nil hkey.ne_nil
    have hopen : c ≠ '\x7b' := by
      rintro rfl
      exact hkey.not_mem (c := '\x7b') (by decide) List.mem_cons_self
    have htrim : trim ('\x7b' :: (field (c :: k) value ++ ['\x7d'])) =
        '\x7b' :: (field (c :: k) value ++ ['\x7d']) :=
      Text.trim_cons_append (c := '\x7b') (d := '\x7d') (by decide) (by decide) _
    have hinside : ((((field (c :: k) value ++ ['\x7d']).dropWhile
        fun c => decide (c = '\x7b')).reverse.dropWhile fun c => decide (c = '\x7d')).reverse) =
        field (c :: k) value := by
      simp [field, hopen]
    rw [htrim, List.dropWhile_cons_of_pos (by decide), hinside, split_field hkey hvalue]
    simp [pair?_field hkey hvalue]

theorem closeBrace?_append_of_bare {s : List Char} (h : Bare s) (depth : Nat) (acc : List Char) :
    closeBrace? depth none false acc (s ++ rest) =
      closeBrace? depth none false (s.reverse ++ acc) rest := by
  induction s generalizing acc with
  | nil => rfl
  | cons c s ih =>
    have hc := h.head
    simp only [List.mem_cons, not_or] at hc
    rw [List.cons_append, closeBrace?]
    simp only [hc.1, hc.2.1, hc.2.2.2.1, hc.2.2.2.2.1, decide_false, Bool.or_self,
      Bool.false_eq_true, if_false]
    rw [ih h.tail, List.reverse_cons, List.append_assoc, List.singleton_append]

theorem closeBrace?_append_of_quoted {s : List Char} (h : Bare s) (depth : Nat)
    (acc : List Char) :
    closeBrace? depth (some '"') false acc (s ++ '"' :: rest) =
      closeBrace? depth none false ('"' :: (s.reverse ++ acc)) rest := by
  induction s generalizing acc with
  | nil => simp [closeBrace?]
  | cons c s ih =>
    have hc := h.head
    simp only [List.mem_cons, not_or] at hc
    rw [List.cons_append, closeBrace?]
    simp only [hc.1, hc.2.2.1, if_false, Bool.false_eq_true]
    rw [ih h.tail, List.reverse_cons, List.append_assoc, List.singleton_append]

/-- The brace that is opened before a field is closed behind it. -/
theorem closeBrace?_field (hkey : IsKey key) (hvalue : Bare value) (rest : List Char) :
    closeBrace? 1 none false [] (field key value ++ '\x7d' :: rest) =
      some (field key value, rest) := by
  have hopen (acc after : List Char) : closeBrace? 1 none false acc (':' :: ' ' :: '"' :: after) =
      closeBrace? 1 (some '"') false ('"' :: ' ' :: ':' :: acc) after := by
    simp [closeBrace?]
  have hclose (acc after : List Char) : closeBrace? 1 none false acc ('\x7d' :: after) =
      some (acc.reverse, after) := by
    simp [closeBrace?]
  have hfield : field key value ++ '\x7d' :: rest =
      key ++ ':' :: ' ' :: '"' :: (value ++ '"' :: '\x7d' :: rest) := by
    simp [field]
  rw [hfield, closeBrace?_append_of_bare hkey.bare, hopen, closeBrace?_append_of_quoted hvalue,
    hclose]
  simp [field]

/-- **The directive is read**: it puts its rule under its key, and what follows is the rule. -/
theorem puts_directive (hkey : IsKey key) (hvalue : Bare value) (hrest : Bare rest) :
    puts (directive key value ++ rest) = ⟨[([], [(String.ofList key, value)])], rest⟩ := by
  have hcut : cut? (putMark ++ ['\x7b']) (directive key value ++ rest) =
      some ([], field key value ++ '\x7d' :: rest) := by
    have h := Text.cut?_append (c := '@') (l := "put:\x7b".toList) (s := []) (by simp)
      (field key value ++ '\x7d' :: rest)
    simpa [directive, putMark] using h
  have habsent : ¬ putMark ++ ['\x7b'] <:+: rest := fun h =>
    hrest.not_mem (c := '\x7b') (by decide) (h.subset (by simp))
  rw [puts, putsFrom_of_cut? hcut (closeBrace?_field hkey hvalue rest),
    putsFrom_of_absent habsent]
  simp [pairs_field hkey hvalue]

end

end Scrape.Evaluate
