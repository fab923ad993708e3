import Mathlib
import Scrape.Proofs.Pattern.Groups
import Scrape.Proofs.Text.Integer
import Scrape.Rule.Replacement

/-!
# Rule — Replacement, its meaning

A replacement text is read into parts: characters, two dollar signs, the whole match, and dollar
signs before digits (`parts`).  The template says of each part what it stands for (`template_eq`),
and so what is put in the place of a match is put together part by part (`expand_template`).

The number after a dollar sign counts a group of the match.  Of two digits only the first counts if
there is no group of that number, and a dollar sign stands for itself if there is no group of either
number (`Part.meaning`).  The template does not know how many groups there are, and takes all digits
in every case (`Part.expansion`).

Main statement (`expand_template_iff`): what is put in the place of matches is what the text means
exactly when all digits of each part count a group.  A text with `$0`, or with more digits than the
groups can use, loses its meaning (`meaning_lost`).
-/

namespace Scrape.Rule

open Pattern
open Scrape.Text (isDigit)

/-! ### Parts -/

/-- A decimal digit. -/
abbrev Digit := { c : Char // isDigit c = true }

/-- The number that one digit or two count. -/
def number (d : Digit) (e? : Option Digit) : Nat :=
  Nat.ofDigitChars 10 ((d :: e?.toList).map Subtype.val) 0

/-- A part of a replacement text. -/
inductive Part where
  /-- A character that stands for itself, which may be a dollar sign. -/
  | char (c : Char)
  /-- Two dollar signs. -/
  | dollar
  /-- What stands for the whole match. -/
  | whole
  /-- A dollar sign and one digit or two. -/
  | counted (d : Digit) (e? : Option Digit)

/-- The parts of a replacement text, in which a dollar sign takes two digits if they follow. -/
def parts : List Char → List Part
  | []     => []
  | c :: s =>
    if c ≠ '$' then .char c :: parts s
    else match s with
    | '$' :: r => .dollar :: parts r
    | '&' :: r => .whole :: parts r
    | d :: r   =>
      if hd : isDigit d then
        match r with
        | e :: r' =>
          if he : isDigit e then .counted ⟨d, hd⟩ (some ⟨e, he⟩) :: parts r'
          else .counted ⟨d, hd⟩ none :: parts (e :: r')
        | []      => [.counted ⟨d, hd⟩ none]
      else .char '$' :: parts (d :: r)
    | []       => [.char '$']

/-- Nothing in the text stands for a named group, or for what is before or after the match. -/
def Plain (s : List Char) : Prop := ∀ c ∈ ['<', '\x60', '\x27'], ¬ ['$', c] <:+: s

theorem Plain.tail {c : Char} {s : List Char} (h : Plain (c :: s)) : Plain s :=
  fun d hd hin => h d hd (List.infix_cons hin)

theorem Plain.ne_less {c : Char} {s : List Char} (h : Plain ('$' :: c :: s)) : c ≠ '<' := by
  rintro rfl
  exact h '<' List.mem_cons_self ⟨[], s, rfl⟩

/-! ### What parts stand for -/

/-- The text of a group, empty if it took no part in the match or there is no such group. -/
def groupText (a : Match) (i : Nat) : List Char := ((a.groups[i]?).join).getD []

/-- There is a group of the number besides the whole match. -/
def HasGroup (a : Match) (i : Nat) : Prop := 1 ≤ i ∧ i < a.groups.length

instance (a : Match) (i : Nat) : Decidable (HasGroup a i) := inferInstanceAs (Decidable (_ ∧ _))

namespace Part

/-- What a part means in the place of a match. -/
def meaning (a : Match) : Part → List Char
  | char c       => [c]
  | dollar       => ['$']
  | whole        => groupText a 0
  | counted d e? =>
    if HasGroup a (number d e?) then groupText a (number d e?)
    else if HasGroup a (number d none) then groupText a (number d none) ++ e?.toList.map (·.val)
    else '$' :: (d :: e?.toList).map (·.val)

/-- What the template says for a part. -/
def template : Part → List Char
  | char c       => if c = '$' then ['$', '$'] else [c]
  | dollar       => ['$', '$']
  | whole        => braced ['0']
  | counted d e? => braced ((d :: e?.toList).map (·.val))

/-- The piece of the template. -/
def piece : Part → Piece
  | char c       => .text c
  | dollar       => .text '$'
  | whole        => .group ['0']
  | counted d e? => .group ((d :: e?.toList).map (·.val))

/-- What is put in the place of a match for a part. -/
def expansion (a : Match) : Part → List Char
  | char c       => [c]
  | dollar       => ['$']
  | whole        => groupText a 0
  | counted d e? => groupText a (number d e?)

/-- All digits of a part count one of `m` groups. -/
def InRange (m : Nat) : Part → Prop
  | counted d e? => 1 ≤ number d e? ∧ number d e? ≤ m
  | _            => True

instance (m : Nat) (p : Part) : Decidable (p.InRange m) :=
  match p with
  | char _       => inferInstanceAs (Decidable True)
  | dollar       => inferInstanceAs (Decidable True)
  | whole        => inferInstanceAs (Decidable True)
  | counted _ _  => inferInstanceAs (Decidable (_ ∧ _))

end Part

/-- What a replacement text means in the place of a match. -/
def meaning (a : Match) (s : List Char) : List Char := (parts s).flatMap (Part.meaning a)

/-! ### Templates -/

theorem Digit.ne (d : Digit) {c : Char} (hc : isDigit c = false) : d.val ≠ c := fun h => by
  have hd := d.property
  rw [h, hc] at hd
  cases hd

/-- A text begins with a part before the rest: the template says what the part stands for, and goes
on with the rest. -/
structure Begins (s : List Char) (p : Part) (rest : List Char) : Prop where
  length_lt : rest.length < s.length
  templateFrom_eq (fuel : Nat) :
    templateFrom (fuel + 1) s = p.template ++ templateFrom fuel rest

section

variable {c : Char} {s : List Char}

theorem begins_char (hc : c ≠ '$') : Begins (c :: s) (.char c) s where
  length_lt := Nat.lt_succ_self _
  templateFrom_eq fuel := by simp [templateFrom, Part.template, hc]

/-- A dollar sign stands for itself if nothing after it makes it part of a reference. -/
theorem begins_sign (hs : ∀ c ∈ s.head?, c ≠ '$' ∧ c ≠ '&' ∧ c ≠ '<' ∧ ¬ isDigit c = true) :
    Begins ('$' :: s) (.char '$') s where
  length_lt := Nat.lt_succ_self _
  templateFrom_eq fuel := by
    cases s with
    | nil => cases fuel <;> rfl
    | cons c r =>
      obtain ⟨hdollar, hand, hless, hdigit⟩ := hs c rfl
      cases r <;> simp [templateFrom, Part.template, hdigit]

theorem begins_dollar : Begins ('$' :: '$' :: s) .dollar s where
  length_lt := Nat.lt_add_of_pos_right Nat.two_pos
  templateFrom_eq _ := rfl

theorem begins_whole : Begins ('$' :: '&' :: s) .whole s where
  length_lt := Nat.lt_add_of_pos_right Nat.two_pos
  templateFrom_eq _ := rfl

theorem begins_counted (d : Digit) (e? : Option Digit)
    (hs : e? = none → ∀ c ∈ s.head?, ¬ isDigit c = true) :
    Begins ('$' :: ((d :: e?.toList).map (·.val) ++ s)) (.counted d e?) s where
  length_lt := by
    simp only [List.length_cons, List.length_append]
    omega
  templateFrom_eq fuel := by
    have hdollar : d.val ≠ '$' := d.ne rfl
    have hand : d.val ≠ '&' := d.ne rfl
    have hless : d.val ≠ '<' := d.ne rfl
    cases e? with
    | some e => simp [templateFrom, Part.template, d.property, e.property]
    | none =>
      cases s with
      | nil => cases fuel <;> simp [templateFrom, Part.template, d.property]
      | cons c r => simp [templateFrom, Part.template, d.property, hs rfl c rfl]

theorem Begins.eq_append {rest t : List Char} {p : Part} (h : Begins s p rest)
    (hrest : ∀ fuel > rest.length, templateFrom fuel rest = t) :
    ∀ fuel > s.length, templateFrom fuel s = p.template ++ t := by
  intro fuel hfuel
  obtain ⟨fuel, rfl⟩ := Nat.exists_eq_add_one.mpr (Nat.zero_lt_of_lt hfuel)
  rw [h.templateFrom_eq, hrest fuel (h.length_lt.trans_le (Nat.le_of_lt_succ hfuel))]

/-- The template says what each part stands for, one after the other. -/
theorem templateFrom_eq (h : Plain s) :
    ∀ fuel > s.length, templateFrom fuel s = (parts s).flatMap Part.template := by
  have hnil : ∀ fuel > 0, templateFrom fuel [] = [] := fun fuel _ => by cases fuel <;> rfl
  fun_induction parts s with
  | case1 => exact hnil
  | case2 c s hc ih => exact (begins_char hc).eq_append (ih h.tail)
  | case3 c hc r ih =>
    obtain rfl : c = '$' := not_not.mp hc
    exact begins_dollar.eq_append (ih h.tail.tail)
  | case4 c hc r ih =>
    obtain rfl : c = '$' := not_not.mp hc
    exact begins_whole.eq_append (ih h.tail.tail)
  | case5 c hc d hdollar hand hd e r he ih =>
    obtain rfl : c = '$' := not_not.mp hc
    exact (begins_counted ⟨d, hd⟩ (some ⟨e, he⟩) (by simp)).eq_append (ih h.tail.tail.tail)
  | case6 c hc d hdollar hand hd e r he ih =>
    obtain rfl : c = '$' := not_not.mp hc
    exact (begins_counted ⟨d, hd⟩ none (by simpa using he)).eq_append (ih h.tail.tail)
  | case7 c hc d hdollar hand hd =>
    obtain rfl : c = '$' := not_not.mp hc
    exact (begins_counted ⟨d, hd⟩ none (by simp)).eq_append hnil
  | case8 c hc d r hdollar hand hd ih =>
    obtain rfl : c = '$' := not_not.mp hc
    have hless := h.ne_less
    exact (begins_sign (by simp_all)).eq_append (ih h.tail)
  | case9 c hc =>
    obtain rfl : c = '$' := not_not.mp hc
    exact (begins_sign (by simp)).eq_append hnil

end

theorem template_eq {s : List Char} (h : Plain s) :
    Rule.template s = (parts s).flatMap Part.template :=
  templateFrom_eq h _ (Nat.lt_succ_self _)

/-! ### Pieces -/

section

variable {fuel : Nat} {c : Char} {s name : List Char}

theorem piecesFrom_char (hc : c ≠ '$') :
    piecesFrom (fuel + 1) (c :: s) = .text c :: piecesFrom fuel s := if_pos hc

theorem piecesFrom_braced (hname : '\x7d' ∉ name) :
    piecesFrom (fuel + 1) (braced name ++ s) = .group name :: piecesFrom fuel s := by
  have hspan : (name ++ '\x7d' :: s).span (fun c => decide ¬ c = '\x7d') = (name, '\x7d' :: s) := by
    have hall : ∀ c ∈ name, decide (¬ c = '\x7d') = true := fun c hc =>
      decide_eq_true fun h => hname (h ▸ hc)
    rw [List.span_eq_takeWhile_dropWhile, List.takeWhile_append_of_pos hall,
      List.dropWhile_append_of_pos hall]
    simp
  simp only [braced, piecesFrom, List.cons_append, List.append_assoc, List.nil_append, ne_eq,
    not_true_eq_false, if_false, hspan]

/-- The template of a part is read as its piece. -/
theorem piecesFrom_template (p : Part) :
    piecesFrom (fuel + 1) (p.template ++ s) = p.piece :: piecesFrom fuel s := by
  cases p with
  | char c =>
    rw [Part.template]
    split
    · rename_i hc
      subst hc
      rfl
    · rename_i hc
      exact piecesFrom_char hc
  | dollar => rfl
  | whole => exact piecesFrom_braced (by decide)
  | counted d e? =>
    refine piecesFrom_braced fun h => ?_
    obtain ⟨e, -, he⟩ := List.mem_map.mp h
    exact e.ne rfl he

theorem Part.length_template_pos (p : Part) : 0 < p.template.length := by
  cases p with
  | char c =>
    rw [Part.template]
    split
    · exact Nat.two_pos
    · exact Nat.one_pos
  | dollar | whole | counted => exact Nat.succ_pos _

/-- The pieces of the template are those of the parts. -/
theorem piecesFrom_flatMap_template (ps : List Part) :
    ∀ fuel > (ps.flatMap Part.template).length,
      piecesFrom fuel (ps.flatMap Part.template) = ps.map Part.piece := by
  induction ps with
  | nil => exact fun fuel _ => by cases fuel <;> rfl
  | cons p ps ih =>
    intro fuel hfuel
    obtain ⟨fuel, rfl⟩ := Nat.exists_eq_add_one.mpr (Nat.zero_lt_of_lt hfuel)
    rw [List.flatMap_cons, List.length_append] at hfuel
    rw [List.flatMap_cons, piecesFrom_template, List.map_cons,
      ih fuel (by have := p.length_template_pos; omega)]

end

/-! ### What is put in the place of a match -/

theorem number_lt (d : Digit) (e? : Option Digit) : number d e? < 100 := by
  have hlt (c : Digit) : c.val.toNat - 48 < 10 := by
    have := Char.isDigit_iff_toNat.mp ((Text.isDigit_eq c.val).symm.trans c.property)
    simp at this
    omega
  have hd := hlt d
  cases e? with
  | none =>
    simp [number, Nat.ofDigitChars_cons]
    omega
  | some e =>
    have he := hlt e
    simp [number, Nat.ofDigitChars_cons]
    omega

/-- Digits between braces stand for the group of their number, whatever names there are. -/
theorem reference_digits (a : Match) (names : List (String × Nat)) (d : Digit)
    (e? : Option Digit) :
    a.reference names ((d :: e?.toList).map (·.val)) = groupText a (number d e?) := by
  have hread : Text.readCount? ((d :: e?.toList).map (·.val)) = some (number d e?) := by
    refine Text.readCount?_of_digits (by simp) (fun c hc => ?_) ?_
    · obtain ⟨c, -, rfl⟩ := List.mem_map.mp hc
      exact c.property
    · exact (number_lt d e?).trans (by decide)
  rw [Match.reference, hread]
  rfl

theorem expand_map_piece (a : Match) (names : List (String × Nat)) (ps : List Part) :
    a.expand names (ps.map Part.piece) = ps.flatMap (Part.expansion a) := by
  induction ps with
  | nil => rfl
  | cons p ps ih =>
    refine congrArg₂ (· ++ ·) ?_ ih
    cases p with
    | char | dollar | whole => rfl
    | counted d e? => exact reference_digits a names d e?

/-- What is put in the place of a match is put together part by part. -/
theorem expand_template (a : Match) (names : List (String × Nat)) {s : List Char} (h : Plain s) :
    a.expand names (pieces (Rule.template s)) = (parts s).flatMap (Part.expansion a) := by
  rw [template_eq h, pieces, piecesFrom_flatMap_template _ _ (Nat.lt_succ_self _), expand_map_piece]

/-! ### Parts whose digits all count a group -/

section

variable {m : Nat} {p : Part} {ps : List Part} {a : Match}

theorem expansion_eq_meaning (ha : a.groups.length = m + 1) (h : p.InRange m) :
    p.expansion a = p.meaning a := by
  cases p with
  | char | dollar | whole => rfl
  | counted d e? => exact (if_pos ⟨h.1, ha ▸ Nat.lt_succ_of_le h.2⟩).symm

/-- A match of nothing, in which no group took part. -/
def bareMatch (m : Nat) : Match := ⟨0, 0, some [] :: List.replicate m none⟩

theorem groupText_bareMatch (m i : Nat) : groupText (bareMatch m) i = [] := by
  cases i with
  | zero => rfl
  | succ i =>
    rw [groupText, bareMatch, List.getElem?_cons_succ, List.getElem?_replicate]
    split <;> rfl

theorem hasGroup_bareMatch {i : Nat} : HasGroup (bareMatch m) i ↔ 1 ≤ i ∧ i ≤ m := by
  rw [HasGroup, bareMatch, List.length_cons, List.length_replicate, Nat.lt_succ_iff]

/-- For a match of nothing, no more is put there than is meant. -/
theorem length_expansion_le (m : Nat) (p : Part) :
    (p.expansion (bareMatch m)).length ≤ (p.meaning (bareMatch m)).length := by
  cases p with
  | char | dollar | whole => exact Nat.le_refl _
  | counted d e? =>
    rw [Part.expansion, groupText_bareMatch]
    exact Nat.zero_le _

/-- For a match of nothing, less is put there than is meant if a digit does not count. -/
theorem inRange_of_length_le
    (h : (p.meaning (bareMatch m)).length ≤ (p.expansion (bareMatch m)).length) : p.InRange m := by
  cases p with
  | char | dollar | whole => trivial
  | counted d e? =>
    rw [Part.expansion, Part.meaning, groupText_bareMatch, groupText_bareMatch,
      List.nil_append] at h
    split at h
    · rename_i hgroup
      exact hasGroup_bareMatch.mp hgroup
    · rename_i hnone
      split at h
      · rename_i hfirst
        -- the second digit is left over, unless there is none
        cases e? with
        | none => exact absurd hfirst hnone
        | some e => exact absurd h (Nat.not_succ_le_zero _)
      · exact absurd h (Nat.not_succ_le_zero _)

theorem length_flatMap_le (m : Nat) (ps : List Part) :
    (ps.flatMap (Part.expansion (bareMatch m))).length ≤
      (ps.flatMap (Part.meaning (bareMatch m))).length := by
  induction ps with
  | nil => exact Nat.le_refl _
  | cons p ps ih =>
    rw [List.flatMap_cons, List.flatMap_cons, List.length_append, List.length_append]
    exact Nat.add_le_add (length_expansion_le m p) ih

theorem forall_inRange_of_length_le
    (h : (ps.flatMap (Part.meaning (bareMatch m))).length ≤
      (ps.flatMap (Part.expansion (bareMatch m))).length) : ∀ p ∈ ps, p.InRange m := by
  induction ps with
  | nil => exact fun p hp => absurd hp List.not_mem_nil
  | cons p ps ih =>
    rw [List.flatMap_cons, List.flatMap_cons, List.length_append, List.length_append] at h
    have hfirst := length_expansion_le m p
    have hrest := length_flatMap_le m ps
    exact List.forall_mem_cons.mpr ⟨inRange_of_length_le (by omega), ih (by omega)⟩

end

/-- **Where replacement texts keep their meaning.**  In a text that names no group and does not ask
for what is before or after the match, for every number of groups: what the template puts in the
place of every match is what the text means, exactly when all digits of each part count one of the
groups.  If they count groups of a pattern, its matches are replaced by what the text means. -/
theorem expand_template_iff (m : Nat) (names : List (String × Nat)) {s : List Char}
    (hplain : Plain s) :
    ((∀ a : Match, a.groups.length = m + 1 →
        a.expand names (pieces (Rule.template s)) = meaning a s) ↔
      ∀ p ∈ parts s, p.InRange m) ∧
    ∀ (pattern : Compiled) (all : Bool) (text : List Char),
      (∀ p ∈ parts s, p.InRange pattern.groups) →
        pattern.replace all (Rule.template s) text =
          replaceMatches (fun a => meaning a s) text
            (if all then pattern.allMatches text else (pattern.match? text).toList) := by
  have hkeeps {m : Nat} {a : Match} (names : List (String × Nat)) (ha : a.groups.length = m + 1)
      (h : ∀ p ∈ parts s, p.InRange m) :
      a.expand names (pieces (Rule.template s)) = meaning a s := by
    rw [expand_template a names hplain]
    exact List.flatMap_congr fun p hp => expansion_eq_meaning ha (h p hp)
  refine ⟨⟨fun h => ?_, fun h a ha => hkeeps names ha h⟩, fun pattern all text h => ?_⟩
  · have hbare := h (bareMatch m) (by rw [bareMatch, List.length_cons, List.length_replicate])
    rw [expand_template _ _ hplain] at hbare
    exact forall_inRange_of_length_le (congrArg List.length hbare).ge
  · refine congrArg (replaceInTurn · text) (List.map_congr_left fun a ha => ?_)
    have hgroups : a.groups.length = pattern.groups + 1 := by
      split at ha
      · exact Compiled.length_groups_of_mem_allMatches ha
      · exact Compiled.length_groups_of_match? (Option.mem_toList.mp ha)
    exact congrArg (a, ·) (hkeeps pattern.names hgroups h)

/-- A text that puts two groups in the other order. -/
def swapping : List Char := ['$', '2', '-', '$', '1']

theorem expand_template_swapping :
    Plain swapping ∧ (∀ p ∈ parts swapping, p.InRange 2) ∧
      ∀ a : Match, a.groups.length = 3 →
        a.expand [] (pieces (Rule.template swapping)) = meaning a swapping :=
  have hplain : Plain swapping := by simp [Plain, swapping, List.infix_cons_iff]
  have hrange : ∀ p ∈ parts swapping, p.InRange 2 := by decide +kernel
  ⟨hplain, hrange, (expand_template_iff 2 [] hplain).1.mpr hrange⟩

/-- A match of a letter, with no group and with one around it. -/
def letterMatch (grouped : Bool) : Match :=
  ⟨0, 1, if grouped then [some ['a'], some ['a']] else [some ['a']]⟩

/-- No group counts as zero, and with one group the second digit is no part of a reference; but the
template takes these digits. -/
theorem meaning_lost :
    (Plain ['$', '0'] ∧ meaning (letterMatch false) ['$', '0'] = ['$', '0'] ∧
      (letterMatch false).expand [] (pieces (Rule.template ['$', '0'])) = ['a']) ∧
    Plain ['$', '1', '5'] ∧ meaning (letterMatch true) ['$', '1', '5'] = ['a', '5'] ∧
      (letterMatch true).expand [] (pieces (Rule.template ['$', '1', '5'])) = [] := by
  refine ⟨⟨?_, by decide +kernel, by decide +kernel⟩, ?_, by decide +kernel, by decide +kernel⟩
  · simp [Plain, List.infix_cons_iff]
  · simp [Plain, List.infix_cons_iff]

end Scrape.Rule
