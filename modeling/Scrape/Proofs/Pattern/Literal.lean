import Scrape.Pattern.Literal
import Scrape.Proofs.Rule.Replacement
import Scrape.Proofs.Text.Find

/-!
# Pattern — Literal, its laws

Replacing a plain text that is not empty.  Its occurrences are the matches that the cuts of the text
give (`occurrencesFrom_of_cut?`), so that replacing in turn takes the text apart where splitting
does (`replacedFrom_occurrences`).

Main statements (`replaceLiteral_all`, `replaceLiteral_of_cut?`): where a replacement text has no
dollar sign, all occurrences are replaced by putting it between the pieces, or the first is replaced
at the first cut.
-/

namespace Scrape.Pattern

variable {needle s before rest : List Char} {fuel place : Nat}

/-! ### Replacing in turn -/

/-- The text from a place on with some matches replaced by the texts beside them. -/
def replacedFrom (place : Nat) (text : List Char) : List (Match × List Char) → List Char
  | []      => text
  | m :: ms =>
    text.take (m.1.start - place) ++ m.2 ++
      replacedFrom m.1.stop (text.drop (m.1.stop - place)) ms

/-- What replacing in turn does for one match: the parts that are done, latest first, the place it
has come to, and the text from there. -/
def replaceStep (acc : List (List Char) × Nat × List Char) (m : Match × List Char) :
    List (List Char) × Nat × List Char :=
  (m.2 :: acc.2.2.take (m.1.start - acc.2.1) :: acc.1, m.1.stop,
    acc.2.2.drop (m.1.stop - acc.2.1))

theorem flatten_foldl_replaceStep (ms : List (Match × List Char))
    (acc : List (List Char) × Nat × List Char) :
    ((ms.foldl replaceStep acc).2.2 :: (ms.foldl replaceStep acc).1).reverse.flatten =
      acc.1.reverse.flatten ++ replacedFrom acc.2.1 acc.2.2 ms := by
  induction ms generalizing acc with
  | nil => simp [replacedFrom]
  | cons m ms ih =>
    rw [List.foldl_cons, ih, replacedFrom]
    simp [replaceStep]

theorem replaceInTurn_eq (ms : List (Match × List Char)) (text : List Char) :
    replaceInTurn ms text = replacedFrom 0 text ms :=
  flatten_foldl_replaceStep ms ([], 0, text)

/-! ### Occurrences -/

/-- The occurrences found before do not change those that are found after them. -/
theorem occurrencesFrom_eq_append (needle : List Char) (fuel place : Nat) (found : List Match)
    (s : List Char) :
    occurrencesFrom needle fuel place found s =
      found.reverse ++ occurrencesFrom needle fuel place [] s := by
  induction fuel generalizing place found s with
  | zero => simp [occurrencesFrom]
  | succ fuel ih =>
    rw [occurrencesFrom, occurrencesFrom]
    cases Text.cut? needle s with
    | none => simp
    | some cut =>
      obtain ⟨before, rest⟩ := cut
      dsimp only
      rw [ih, ih _ [_]]
      simp

/-- The occurrence at the first cut comes first. -/
theorem occurrencesFrom_of_cut? (h : Text.cut? needle s = some (before, rest)) :
    occurrencesFrom needle (fuel + 1) place [] s =
      ⟨place + before.length, place + before.length + needle.length, [some needle]⟩ ::
        occurrencesFrom needle fuel (place + before.length + needle.length) [] rest := by
  rw [occurrencesFrom, h]
  exact occurrencesFrom_eq_append needle fuel _ [_] rest

theorem occurrencesFrom_of_absent (h : ¬ needle <:+: s) :
    occurrencesFrom needle fuel place [] s = [] := by
  cases fuel with
  | zero => rfl
  | succ fuel =>
    rw [occurrencesFrom, Text.cut?_eq_none_iff.mpr h]
    rfl

theorem occurrences_of_ne_nil (hn : needle ≠ []) :
    occurrences needle s = occurrencesFrom needle s.length 0 [] s := by
  rw [occurrences, if_neg (by simpa using hn)]

/-! ### Replacing occurrences -/

/-- What stands before the first cut is kept, and what was cut out is replaced. -/
theorem replacedFrom_of_cut? (h : Text.cut? needle s = some (before, rest)) (b : List Char)
    (groups : List (Option (List Char))) (ms : List (Match × List Char)) :
    replacedFrom place s
        ((⟨place + before.length, place + before.length + needle.length, groups⟩, b) :: ms) =
      before ++ b ++ replacedFrom (place + before.length + needle.length) rest ms := by
  have hstart : place + before.length - place = before.length := by omega
  have hstop : place + before.length + needle.length - place = (before ++ needle).length := by
    rw [List.length_append]
    omega
  rw [replacedFrom, hstart, hstop, Text.eq_append_of_cut? h, List.drop_left,
    List.append_assoc before needle, List.take_left]

/-- Replacing the occurrences puts the replacement between the pieces. -/
theorem replacedFrom_occurrences (hn : needle ≠ []) (b : List Char) (hfuel : s.length ≤ fuel) :
    replacedFrom place s ((occurrencesFrom needle fuel place [] s).map fun m => (m, b)) =
      b.intercalate (Text.splitOn needle s) := by
  induction fuel generalizing place s with
  | zero =>
    obtain rfl := List.eq_nil_of_length_eq_zero (Nat.le_zero.mp hfuel)
    rw [Text.splitOn_of_absent (by simpa using hn)]
    simp [occurrencesFrom, replacedFrom, List.intercalate]
  | succ fuel ih =>
    cases hcut : Text.cut? needle s with
    | none =>
      have habsent := Text.cut?_eq_none_iff.mp hcut
      rw [occurrencesFrom_of_absent habsent, Text.splitOn_of_absent habsent]
      simp [replacedFrom, List.intercalate]
    | some cut =>
      obtain ⟨before, rest⟩ := cut
      have hrest : rest.length ≤ fuel := by
        have := Text.length_cut? hcut
        have := List.length_pos_iff.mpr hn
        omega
      rw [occurrencesFrom_of_cut? hcut, List.map_cons, replacedFrom_of_cut? hcut, ih hrest,
        Text.splitOn_of_cut? hn hcut,
        List.intercalate_cons_of_ne_nil (Text.splitOn_ne_nil hn rest)]

/-! ### Replacement texts without a dollar sign -/

section

variable {b : List Char}

theorem plain_of_not_mem (hb : '$' ∉ b) : Rule.Plain b :=
  fun _ _ hin => hb (hin.subset List.mem_cons_self)

theorem parts_of_not_mem (hb : '$' ∉ b) : Rule.parts b = b.map .char := by
  induction b with
  | nil => rfl
  | cons c b ih =>
    obtain ⟨hc, hb⟩ := List.ne_and_not_mem_of_not_mem_cons hb
    rw [Rule.parts.eq_def]
    simp [hc.symm, ih hb]

/-- A text without a dollar sign is put in the place of every match as it stands. -/
theorem expand_of_not_mem (m : Match) (names : List (String × Nat)) (hb : '$' ∉ b) :
    m.expand names (pieces (Rule.template b)) = b := by
  rw [Rule.expand_template m names (plain_of_not_mem hb), parts_of_not_mem hb, List.flatMap_map]
  exact List.flatMap_singleton' b

/-- **All occurrences** of a text that is not empty are replaced where splitting cuts them out. -/
theorem replaceLiteral_all (hn : needle ≠ []) (hb : '$' ∉ b) (s : List Char) :
    replaceLiteral needle true (Rule.template b) s = b.intercalate (Text.splitOn needle s) := by
  rw [replaceLiteral, occurrences_of_ne_nil hn, replaceMatches, replaceInTurn_eq]
  simp only [expand_of_not_mem _ [] hb, if_true]
  exact replacedFrom_occurrences hn b (Nat.le_refl _)

/-- **The first occurrence** is replaced at the first cut. -/
theorem replaceLiteral_of_cut? (hn : needle ≠ []) (hb : '$' ∉ b)
    (h : Text.cut? needle s = some (before, rest)) :
    replaceLiteral needle false (Rule.template b) s = before ++ b ++ rest := by
  have hlength : s.length ≠ 0 := by
    have := Text.length_cut? h
    have := List.length_pos_iff.mpr hn
    omega
  obtain ⟨fuel, hfuel⟩ := Nat.exists_eq_succ_of_ne_zero hlength
  rw [replaceLiteral, occurrences_of_ne_nil hn, replaceMatches, replaceInTurn_eq, hfuel,
    occurrencesFrom_of_cut? h]
  simp only [expand_of_not_mem _ [] hb, if_false, List.take_succ_cons, List.take_zero,
    List.map_cons, List.map_nil, Bool.false_eq_true]
  rw [replacedFrom_of_cut? h]
  simp [replacedFrom]

theorem replaceLiteral_of_absent (hn : needle ≠ []) (all : Bool) (template : List Char)
    (h : ¬ needle <:+: s) : replaceLiteral needle all template s = s := by
  rw [replaceLiteral, occurrences_of_ne_nil hn, occurrencesFrom_of_absent h]
  cases all <;> simp [replaceMatches, replaceInTurn]

end

end Scrape.Pattern
