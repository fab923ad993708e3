import Scrape.Proofs.Rule.Cut
import Scrape.XPath.Parser

/-!
# XPath — Enclosed, what scans pass over

A text of paths is scanned three times: for the bars between paths, for the slashes between steps
and for the bracket that closes a predicate.  Each scan has its own notion of quotes and brackets.
What they have in common (`Scanner.Heeds`) is that a literal without a backslash and a closed
bracket leave them as they were.  So of a text in which all literals and brackets are closed and no
bar or slash stands outside of literals (`Enclosed`) they think alike: none stops within it, and
each stands after it as before it (`Enclosed.passes`).
-/

namespace Scrape.XPath

/-! ### Texts -/

/-- The characters that mean something to one of the scans. -/
def signs : List Char :=
  ['\\', '"', '\'', '(', '[', '\x7b', ')', ']', '\x7d', '|', '/']

/-- Every literal and every bracket of the text is closed, and no bar or slash stands outside of
literals. -/
inductive Enclosed : List Char → Prop where
  | nil : Enclosed []
  | plain {c : Char} {s : List Char} (hc : c ∉ signs) (h : Enclosed s) : Enclosed (c :: s)
  /-- A literal, without a backslash. -/
  | literal {q : Char} {v s : List Char} (hq : q = '\'' ∨ q = '"') (hv : ∀ c ∈ v, c ≠ q ∧ c ≠ '\\')
      (h : Enclosed s) : Enclosed (q :: (v ++ q :: s))
  | round {inner s : List Char} (hinner : Enclosed inner) (h : Enclosed s) :
      Enclosed ('(' :: (inner ++ ')' :: s))
  | square {inner s : List Char} (hinner : Enclosed inner) (h : Enclosed s) :
      Enclosed ('[' :: (inner ++ ']' :: s))

namespace Enclosed

variable {s t : List Char}

theorem append (hs : Enclosed s) (ht : Enclosed t) : Enclosed (s ++ t) := by
  induction hs with
  | nil => exact ht
  | plain hc _ ih => exact .plain hc ih
  | literal hq hv _ ih =>
    rw [List.cons_append, List.append_assoc]
    exact .literal hq hv ih
  | round hinner _ _ ih =>
    rw [List.cons_append, List.append_assoc]
    exact .round hinner ih
  | square hinner _ _ ih =>
    rw [List.cons_append, List.append_assoc]
    exact .square hinner ih

theorem of_forall (h : ∀ c ∈ s, c ∉ signs) : Enclosed s := by
  induction s with
  | nil => exact .nil
  | cons c s ih =>
    rw [List.forall_mem_cons] at h
    exact .plain h.1 (ih h.2)

end Enclosed

/-! ### Scanners -/

/-- A scan of a text: the state after one more character, and the characters at which it stops. -/
structure Scanner (σ : Type) where
  step : σ → Char → σ
  stops : σ → Char → Prop

namespace Scanner

variable {σ : Type} {m : Scanner σ} {st st' st'' : σ} {s t : List Char} {c : Char}

/-- The scan gets from a state to a state along a text, without a stop. -/
def Passes (m : Scanner σ) : σ → List Char → σ → Prop
  | st, [],     st' => st = st'
  | st, c :: s, st' => ¬ m.stops st c ∧ m.Passes (m.step st c) s st'

/-- The character leads from a state to a state, without a stop. -/
def Leads (m : Scanner σ) (st : σ) (c : Char) (st' : σ) : Prop := ¬ m.stops st c ∧ m.step st c = st'

theorem Leads.passes (h : m.Leads st c st') (hs : m.Passes st' s st'') :
    m.Passes st (c :: s) st'' := by
  obtain ⟨hstop, rfl⟩ := h
  exact ⟨hstop, hs⟩

theorem Passes.append (hs : m.Passes st s st') (ht : m.Passes st' t st'') :
    m.Passes st (s ++ t) st'' := by
  induction s generalizing st with
  | nil =>
    obtain rfl : st = st' := hs
    exact ht
  | cons c s ih => exact ⟨hs.1, ih hs.2⟩

theorem passes_of_forall (h : ∀ c ∈ s, m.Leads st c st) : m.Passes st s st := by
  induction s with
  | nil => rfl
  | cons c s ih =>
    rw [List.forall_mem_cons] at h
    exact h.1.passes (ih h.2)

/-- What all scans of paths have in common: outside of literals, at each depth of brackets, a
character without a meaning changes nothing, and what a quote or a bracket opens is closed again. -/
structure Heeds (m : Scanner σ) (outside : Nat → σ) (within : Char → Nat → σ) : Prop where
  plain (d : Nat) : ∀ c ∉ signs, m.Leads (outside d) c (outside d)
  quote (d : Nat) : ∀ q, q = '\'' ∨ q = '"' →
    m.Leads (outside d) q (within q d) ∧ m.Leads (within q d) q (outside d)
  literal (d : Nat) (q : Char) : ∀ c, c ≠ q ∧ c ≠ '\\' → m.Leads (within q d) c (within q d)
  round (d : Nat) :
    ∃ d', m.Leads (outside d) '(' (outside d') ∧ m.Leads (outside d') ')' (outside d)
  square (d : Nat) :
    ∃ d', m.Leads (outside d) '[' (outside d') ∧ m.Leads (outside d') ']' (outside d)

end Scanner

/-- **Such a scan passes over what is enclosed.** -/
theorem Enclosed.passes {σ : Type} {m : Scanner σ} {outside : Nat → σ} {within : Char → Nat → σ}
    (hm : m.Heeds outside within) {s : List Char} (h : Enclosed s) (d : Nat) :
    m.Passes (outside d) s (outside d) := by
  induction h generalizing d with
  | nil => rfl
  | plain hc _ ih => exact (hm.plain d _ hc).passes (ih d)
  | @literal q v s hq hv _ ih =>
    obtain ⟨hopen, hclose⟩ := hm.quote d q hq
    have hinner := Scanner.passes_of_forall fun c hc => hm.literal d q c (hv c hc)
    exact hopen.passes (hinner.append (hclose.passes (ih d)))
  | round _ _ ihinner ih =>
    obtain ⟨d', hopen, hclose⟩ := hm.round d
    exact hopen.passes ((ihinner d').append (hclose.passes (ih d)))
  | square _ _ ihinner ih =>
    obtain ⟨d', hopen, hclose⟩ := hm.square d
    exact hopen.passes ((ihinner d').append (hclose.passes (ih d)))

/-! ### The scans of paths -/

/-- The scan for the bars between paths. -/
def barScanner : Scanner Rule.Scan := ⟨Rule.Scan.step, fun st c => st.separates c = true ∧ c = '|'⟩

/-- The scan for the slashes between steps. -/
def slashScanner : Scanner Scan :=
  ⟨Scan.step ['[', '('] [']', ')'], fun st c => st.quote? = none ∧ st.depth = 0 ∧ c = '/'⟩

/-- The scan for the bracket that closes a predicate. -/
def bracketScanner : Scanner Scan :=
  ⟨Scan.step ['['] [']'], fun st c => (st.step ['['] [']'] c).depth = 0⟩

theorem heeds_barScanner :
    barScanner.Heeds (fun d => ⟨none, d, false⟩) (fun q d => ⟨some q, d, false⟩) where
  plain d c hc := by
    simp only [signs, List.mem_cons, List.not_mem_nil, or_false, not_or] at hc
    exact ⟨fun h => hc.2.2.2.2.2.2.2.2.2.1 h.2, by simp [barScanner, Rule.Scan.step, hc]⟩
  quote d q hq := by
    rcases hq with rfl | rfl <;>
      simp [barScanner, Scanner.Leads, Rule.Scan.step, Rule.Scan.onQuote]
  literal d q c hc := by
    refine ⟨fun h => ?_, ?_⟩
    · simp [barScanner, Rule.Scan.separates] at h
    · simp [barScanner, Rule.Scan.step, Rule.Scan.onQuote, hc, Ne.symm hc.1]
  round d := ⟨d + 1, by simp [barScanner, Scanner.Leads, Rule.Scan.step]⟩
  square d := ⟨d + 1, by simp [barScanner, Scanner.Leads, Rule.Scan.step]⟩

theorem heeds_slashScanner :
    slashScanner.Heeds (fun d => ⟨none, d⟩) (fun q d => ⟨some q, d⟩) where
  plain d c hc := by
    simp only [signs, List.mem_cons, List.not_mem_nil, or_false, not_or] at hc
    simp [slashScanner, Scanner.Leads, Scan.step, hc]
  quote d q hq := by
    rcases hq with rfl | rfl <;> simp [slashScanner, Scanner.Leads, Scan.step]
  literal d q c hc := by simp [slashScanner, Scanner.Leads, Scan.step, hc]
  round d := ⟨d + 1, by simp [slashScanner, Scanner.Leads, Scan.step]⟩
  square d := ⟨d + 1, by simp [slashScanner, Scanner.Leads, Scan.step]⟩

/-- Round brackets mean nothing in a predicate, whose own bracket is open. -/
theorem heeds_bracketScanner :
    bracketScanner.Heeds (fun d => ⟨none, d + 1⟩) (fun q d => ⟨some q, d + 1⟩) where
  plain d c hc := by
    simp only [signs, List.mem_cons, List.not_mem_nil, or_false, not_or] at hc
    simp [bracketScanner, Scanner.Leads, Scan.step, hc]
  quote d q hq := by
    rcases hq with rfl | rfl <;> simp [bracketScanner, Scanner.Leads, Scan.step]
  literal d q c hc := by simp [bracketScanner, Scanner.Leads, Scan.step, hc]
  round d := ⟨d, by simp [bracketScanner, Scanner.Leads, Scan.step]⟩
  square d := ⟨d + 1, by simp [bracketScanner, Scanner.Leads, Scan.step]⟩

/-! ### What the scans give -/

section

variable {s : List Char}

theorem run_eq_and_whole_of_passes {st st' : Rule.Scan} (h : barScanner.Passes st s st') :
    st.run s = st' ∧ Rule.Whole [['|']] [] st s := by
  induction s generalizing st with
  | nil => exact ⟨h, trivial⟩
  | cons c s ih =>
    obtain ⟨hrun, hwhole⟩ := ih h.2
    refine ⟨hrun, ?_, hwhole⟩
    rw [List.cons_append, Rule.separatorFrom?]
    split
    · next hseparates =>
      have hbar : c ≠ '|' := fun hc => h.1 ⟨hseparates, hc⟩
      simp [Rule.separatorAt?, Text.startsWith, Text.after?, Ne.symm hbar]
    · rfl

theorem splitStep_append_of_passes {st st' : Scan} (h : slashScanner.Passes st s st')
    (r : List Char) :
    splitStep st (s ++ r) = (s ++ (splitStep st' r).1, (splitStep st' r).2) := by
  induction s generalizing st with
  | nil =>
    obtain rfl : st = st' := h
    rfl
  | cons c s ih =>
    have hgo : ¬ (st.quote?.isNone && st.depth = 0 && c = '/') = true := by
      simpa [slashScanner, and_assoc] using h.1
    have hrest : splitStep (st.step ['[', '('] [']', ')'] c) (s ++ r) = _ := ih h.2
    rw [List.cons_append, splitStep, if_neg hgo, hrest]
    rfl

theorem readBracket?_append_of_passes {st st' : Scan} (h : bracketScanner.Passes st s st')
    (acc r : List Char) :
    readBracket? st acc (s ++ r) = readBracket? st' (s.reverse ++ acc) r := by
  induction s generalizing st acc with
  | nil =>
    obtain rfl : st = st' := h
    rfl
  | cons c s ih =>
    have hgo : ¬ (st.step ['['] [']'] c).depth = 0 := h.1
    have hrest : readBracket? (st.step ['['] [']'] c) (c :: acc) (s ++ r) = _ := ih h.2 (c :: acc)
    rw [List.cons_append, readBracket?, if_neg hgo, hrest, List.reverse_cons, List.append_assoc]
    rfl

/-- No slash within an enclosed text separates steps. -/
theorem Enclosed.splitStep_append (h : Enclosed s) (r : List Char) :
    splitStep {} (s ++ r) = (s ++ (splitStep {} r).1, (splitStep {} r).2) :=
  splitStep_append_of_passes (h.passes heeds_slashScanner 0) r

/-- No bracket within an enclosed text closes the predicate it stands in. -/
theorem Enclosed.readBracket?_append (h : Enclosed s) (acc r : List Char) :
    readBracket? { depth := 1 } acc (s ++ r) = readBracket? { depth := 1 } (s.reverse ++ acc) r :=
  readBracket?_append_of_passes (h.passes heeds_bracketScanner 0) acc r

end

end Scrape.XPath
