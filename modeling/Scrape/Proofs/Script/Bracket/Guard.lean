import Mathlib.Data.List.Infix
import Scrape.Proofs.Script.Bracket.Stmt
import Scrape.Script.Parse

/-!
# Script — Bracket — Guard

What the bound on the measured depth says about scripts that are parsed.  The measure knows nothing
of regular expressions and of some marks that end a line or start a comment for the readers
(`Misread`); as long as a script has nothing of that kind its brackets are nested within the bound,
and with any of them they need not be (`nesting_le_maxNesting_iff`).
-/

namespace Scrape.Script

open Nesting Read

variable {bound : Nat}

/-! ### The measured depth -/

/-- The function around a script is one bracket more. -/
theorem reach_functionText_le (source : List Char) :
    reach [] (functionText source) ≤ depth source + 1 := by
  have hstart : "function __rule__() \x7b\n".toList =
      "function __rule__".toList ++ ['(', ')', ' ', '\x7b', '\n'] := rfl
  have hword : ∀ c ∈ "function __rule__".toList, c ∉ marked := by simp [marked]
  have hbrackets : ∀ s, reach [] (['(', ')', ' ', '\x7b', '\n'] ++ s) =
      Nesting.measure .code ⟨['\x7b'], 1, 1⟩ s := fun _ => rfl
  have htail : ∀ c ∈ "\n\x7d".toList, ¬ opens c = true := by simp [opens]
  have hwithin : (Open.mk ['\x7b'] 1 1).Within 1 ⟨[], 0, 0⟩ :=
    ⟨⟨['\x7b'], by decide, rfl⟩, Nat.le_refl _, Nat.le_refl _⟩
  have hhead : reach [] (functionText source) =
      Nesting.measure .code ⟨['\x7b'], 1, 1⟩ (source ++ "\n\x7d".toList) := by
    unfold functionText
    rw [hstart, List.append_assoc, List.append_assoc,
      reach_append_of_not_marked .nil hword, hbrackets]
  calc reach [] (functionText source)
      = Nesting.measure .code ⟨['\x7b'], 1, 1⟩ (source ++ "\n\x7d".toList) := hhead
    _ ≤ Nesting.measure .code ⟨['\x7b'], 1, 1⟩ source := measure_append_le htail
    _ ≤ depth source + 1 := measure_le_of_within hwithin

/-! ### Regular expressions -/

/-- Reads a regular expression that starts here, if the measure reads it as one. -/
def readPlainRegex : Read Expr := do
  match readRegex? ((← get).text.drop 1) with
  | some (source, flags, r) =>
    if plainRegex source flags r then goTo r; return .regex source flags
    else failure
  | none => failure

theorem restoresRegex_readPlainRegex : RestoresRegex bound readPlainRegex := by
  intro marks source hat ht
  have htext : ∃ s, source.text = '/' :: s := by
    rcases ht with ht | ht
    · exact ⟨_, eq_append_of_readToken? (ht ▸ hat.token)⟩
    · exact ⟨_, eq_append_of_readToken? (ht ▸ hat.token)⟩
  obtain ⟨s, hs⟩ := htext
  refine Ensures.get ?_
  rw [hs, List.drop_one, List.tail_cons]
  split
  · next regex flags r hread =>
    split
    · next hplain =>
      have hleads := leads_of_readRegex? (hs ▸ hat.free) hread hplain
      rw [← hs] at hleads
      refine (ensures_goTo hat.code (hat.regular.of_suffix hleads.suffix)
        (Nat.le_trans hleads.suffix.length_le hat.size)
        (Nat.le_trans (hleads.reach_le marks hat.code) hat.reach_le)).bind fun _ s hat => ?_
      exact .pure ⟨hat, hat.length_le⟩
    · exact .failure
  · exact .failure

/-! ### What is misread -/

/-- What the measure reads otherwise than the readers do. -/
inductive Misread where
  /-- A regular expression that holds a quote, a bracket or a slash, or that ends in what looks like
  the start of a comment. -/
  | regex
  /-- A carriage return without a line feed after it, which ends a line. -/
  | carriageReturn
  /-- U+2028, which ends a line. -/
  | lineSeparator
  /-- U+2029, which ends a line. -/
  | paragraphSeparator
  /-- The mark `<!--`, which starts a comment. -/
  | opening
  /-- The mark `-->`, which starts a comment in a new line. -/
  | closing
  deriving DecidableEq

namespace Misread

/-- Whether it stands at the start of a text; what is a regular expression depends on the text
before it. -/
def starts : Misread → List Char → Bool
  | .regex,              _ => false
  | .carriageReturn,     s => s.head? == some '\r' && s.tail.head? != some '\n'
  | .lineSeparator,      s => s.head? == some (Char.ofNat 0x2028)
  | .paragraphSeparator, s => s.head? == some (Char.ofNat 0x2029)
  | .opening,            s => "<!--".toList.isPrefixOf s
  | .closing,            s => "-->".toList.isPrefixOf s

/-- Whether it occurs in a text that is read. -/
def In (m : Misread) (s : List Char) : Prop :=
  s.tails.any m.starts = true ∨
    m = .regex ∧ readProgramWith? readPlainRegex s ≠ readProgram? s

theorem in_of_starts {m : Misread} {s t : List Char} (ht : t <:+ s) (h : m.starts t = true) :
    m.In s :=
  .inl (List.any_eq_true.mpr ⟨t, (List.mem_tails t s).mpr ht, h⟩)

theorem regular_of_not_in {s : List Char} (h : ∀ m : Misread, ¬ m.In s) : Regular s where
  carriage r hr := by
    by_contra hnext
    exact h .carriageReturn (in_of_starts hr (by simp [starts, hnext]))
  line hmem := by
    obtain ⟨before, after, rfl⟩ := List.append_of_mem hmem
    exact h .lineSeparator (in_of_starts (List.suffix_append before _) (by simp [starts]))
  paragraph hmem := by
    obtain ⟨before, after, rfl⟩ := List.append_of_mem hmem
    exact h .paragraphSeparator (in_of_starts (List.suffix_append before _) (by simp [starts]))
  opening hmark := by
    obtain ⟨before, after, rfl⟩ := hmark
    rw [List.append_assoc] at h
    exact h .opening (in_of_starts (List.suffix_append before _) (by simp [starts]))
  closing hmark := by
    obtain ⟨before, after, rfl⟩ := hmark
    rw [List.append_assoc] at h
    exact h .closing (in_of_starts (List.suffix_append before _) (by simp [starts]))

end Misread

theorem parse_of_readProgram? {source : List Char} {name : String} {params : List Binding}
    {body : List Stmt} (hdepth : depth source ≤ maxNesting)
    (hread : readProgram? (functionText source) = some [.function name params body]) :
    parse source = .ok body := by
  rw [parse, if_neg (Nat.not_lt.mpr hdepth), hread]

/-- A script that is parsed is nested within the bound, if nothing in it is misread. -/
theorem nesting_le_of_not_in {source : List Char} {body : List Stmt}
    (h : ∀ m : Misread, ¬ m.In (functionText source)) (hparse : parse source = .ok body) :
    deepest Stmt.nesting body ≤ maxNesting := by
  have hregular := Misread.regular_of_not_in h
  have hplain : readProgramWith? readPlainRegex (functionText source) =
      readProgram? (functionText source) := by
    by_contra hne
    exact h .regex (.inr ⟨rfl, hne⟩)
  unfold parse at hparse
  split at hparse
  · cases hparse
  · next hdepth =>
    split at hparse
    · cases hparse
    · next name params body' hread =>
      cases hparse
      rw [← hplain] at hread
      have hbody := nesting_of_readProgramWith? restoresRegex_readPlainRegex hregular hread
      have hreach := reach_functionText_le source
      simp only [deepest_cons, deepest_nil, Stmt.nesting, stmtsNesting_eq] at hbody
      omega
    · cases hparse

/-! ### Scripts that are nested too deep -/

/-- A name in parentheses. -/
def enclosed : Nat → Expr
  | 0     => .name "x"
  | n + 1 => .paren (enclosed n)

theorem nesting_enclosed (n : Nat) : (enclosed n).nesting = n := by
  induction n with
  | zero => rfl
  | succ n ih => rw [enclosed, Expr.nesting, ih]

/-- The text of a name in parentheses. -/
def enclosedText (n : Nat) : List Char := List.replicate n '(' ++ 'x' :: List.replicate n ')'

/-- Whether an expression is the name in parentheses. -/
def isEnclosed : Nat → Expr → Bool
  | 0,     .name x  => x == "x"
  | n + 1, .paren e => isEnclosed n e
  | _,     _        => false

theorem eq_of_isEnclosed {n : Nat} {e : Expr} (h : isEnclosed n e = true) : e = enclosed n := by
  fun_induction isEnclosed n e with
  | case1 x => rw [beq_iff_eq.mp h, enclosed]
  | case2 n e ih => rw [ih h, enclosed]
  | case3 => cases h

/-- Whether the name in parentheses is all that is read. -/
def readsEnclosed (n : Nat) : Option (List Stmt) → Bool
  | some [.function name [] [.expr e]] => name == "__rule__" && isEnclosed n e
  | _                                  => false

theorem eq_of_readsEnclosed {n : Nat} {read : Option (List Stmt)}
    (h : readsEnclosed n read = true) :
    read = some [.function "__rule__" [] [.expr (enclosed n)]] := by
  unfold readsEnclosed at h
  split at h
  · rw [Bool.and_eq_true, beq_iff_eq] at h
    rw [h.1, eq_of_isEnclosed h.2]
  · cases h

namespace Misread

/-- What is misread, and makes a comment or a quoted text of what follows it for the measure. -/
def hides : Misread → List Char
  | .regex              => "/\"/;".toList
  | .carriageReturn     => "//\r".toList
  | .lineSeparator      => "//\u2028".toList
  | .paragraphSeparator => "//\u2029".toList
  | .opening            => "<!--\"\n".toList
  | .closing            => "-->\"\n".toList

/-- A script with one bracket too many, and one thing that is misread. -/
def script (m : Misread) : List Char := m.hides ++ enclosedText (maxNesting + 1)

/-- All that is misread. -/
def all : List Misread :=
  [.regex, .carriageReturn, .lineSeparator, .paragraphSeparator, .opening, .closing]

theorem mem_all (m : Misread) : m ∈ all := by
  cases m
  all_goals decide

theorem alone : (all.all fun m => all.all fun m' =>
    m' == m || !(functionText m.script).tails.any m'.starts) = true := by
  decide +kernel

/-- What the script does not hide is read. -/
theorem reads_script (m : Misread) : m = .regex ∨
    readsEnclosed (maxNesting + 1) (readProgramWith? readPlainRegex (functionText m.script)) = true ∧
      readsEnclosed (maxNesting + 1) (readProgram? (functionText m.script)) = true := by
  cases m with
  | regex => exact .inl rfl
  | _ => exact .inr ⟨by decide +kernel, by decide +kernel⟩

theorem depth_script_le (m : Misread) : depth m.script ≤ maxNesting := by
  cases m
  all_goals decide +kernel

theorem any_regex_script : ((parse Misread.regex.script).toOption.any fun body =>
    decide (maxNesting < deepest Stmt.nesting body)) = true := by
  decide +kernel

theorem exceeds (m : Misread) :
    ∃ body, parse m.script = .ok body ∧ maxNesting < deepest Stmt.nesting body := by
  rcases reads_script m with rfl | ⟨-, hread⟩
  · have h := any_regex_script
    cases hparse : parse Misread.regex.script with
    | error e =>
      rw [hparse] at h
      cases h
    | ok body =>
      rw [hparse] at h
      exact ⟨body, rfl, of_decide_eq_true h⟩
  · refine ⟨_, parse_of_readProgram? (depth_script_le m) (eq_of_readsEnclosed hread), ?_⟩
    simp only [deepest_cons, Stmt.nesting, nesting_enclosed]
    omega

/-- Nothing else is misread in the script. -/
theorem eq_of_in_script {m m' : Misread} (h : m'.In (functionText m.script)) : m' = m := by
  rcases h with h | ⟨rfl, h⟩
  · have halone := List.all_eq_true.mp (List.all_eq_true.mp alone m (mem_all m)) m' (mem_all m')
    rw [h, Bool.not_true, Bool.or_false, beq_iff_eq] at halone
    exact halone
  · rcases reads_script m with hm | ⟨hplain, hread⟩
    · exact hm.symm
    · exact absurd ((eq_of_readsEnclosed hplain).trans (eq_of_readsEnclosed hread).symm) h

end Misread

/-- **The guard bounds the nesting** of the brackets of what is parsed if nothing is misread, and
each of the things that are misread lets a script pass that is nested deeper. -/
theorem nesting_le_maxNesting_iff (may : Misread → Prop) :
    (∀ source body, (∀ m : Misread, m.In (functionText source) → may m) →
      parse source = .ok body → deepest Stmt.nesting body ≤ maxNesting) ↔ ∀ m, ¬ may m := by
  refine ⟨fun h m hm => ?_, fun h source body hin hparse => ?_⟩
  · obtain ⟨body, hparse, hbody⟩ := m.exceeds
    have hle := h m.script body (fun m' hin => Misread.eq_of_in_script hin ▸ hm) hparse
    omega
  · exact nesting_le_of_not_in (fun m hm => h m (hin m hm)) hparse

/-- A quote in a regular expression hides the brackets after it. -/
theorem quotedRegex_exceeds :
    ∃ body, parse ("/\"/;".toList ++ enclosedText 33) = .ok body ∧
      ¬ deepest Stmt.nesting body ≤ maxNesting := by
  obtain ⟨body, hparse, hbody⟩ := Misread.regex.exceeds
  exact ⟨body, hparse, Nat.not_le.mpr hbody⟩

end Scrape.Script
