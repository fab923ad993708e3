import Mathlib.Data.List.DropRight
import Scrape.Json.Path
import Scrape.Proofs.Text.Blank
import Scrape.Proofs.Text.Integer

/-!
# Json — Spelling

How the steps of a path are written: in brackets, where a key stands in quotes, or after a point
(`SpellsStep`), and one after the other (`Spells`).  A bracket ends at the first one that closes, and
a name at the first character that starts another step, whatever follows it; so each step is read
alone (`exists_stepsFrom?_eq`), and a path of them is read as the steps it is written for
(`Spells.steps?_eq`).

Main statement (`resolve?_spelled`): a path leads where its steps lead, in whatever spelling.
-/

namespace Scrape.JsonPath

open Scrape.Text (WritesInteger breakAt breakAt_append readInteger? trim trimEnd trimEnd_append
  trimEnd_of_trim trim_append trim_cons_append trim_of_forall)

/-! ### How a step is written -/

/-- The text is written after a point for a step: a name without blanks at its ends that starts no
other step, or an asterisk for all items or fields. -/
inductive SpellsName : Step → List Char → Prop where
  | key {k : List Char} (hne : k ≠ []) (htrim : trim k = k) (hstart : ∀ c ∈ k, startsStep c = false)
      (hstar : k ≠ ['*']) : SpellsName (.key (String.ofList k)) k
  | star : SpellsName .wildcard ['*']

/-- The text is written in brackets for a step: a key in quotes that neither begins nor ends in a
quote itself, an index, or an asterisk for all items or fields. -/
inductive SpellsContent : Step → List Char → Prop where
  | key {k : List Char} (hclose : ']' ∉ k) (hhead : ∀ c ∈ k.head?, c ≠ '\'' ∧ c ≠ '"')
      (hlast : ∀ c ∈ k.getLast?, c ≠ '\'' ∧ c ≠ '"') :
      SpellsContent (.key (String.ofList k)) ('\'' :: (k ++ ['\'']))
  | index {i : Int} {s : List Char} (h : WritesInteger i s) : SpellsContent (.index i) s
  | star : SpellsContent .wildcard ['*']

/-- The text is written for a step. -/
inductive SpellsStep : Step → List Char → Prop where
  | dotted {step : Step} {s : List Char} (h : SpellsName step s) : SpellsStep step ('.' :: s)
  | bracketed {step : Step} {s : List Char} (h : SpellsContent step s) :
      SpellsStep step ('[' :: (s ++ [']']))

/-- The text is written for steps, one after the other. -/
inductive Spells : List Step → List Char → Prop where
  | nil : Spells [] []
  | cons {step : Step} {steps : List Step} {s t : List Char} (h : SpellsStep step s)
      (hrest : Spells steps t) : Spells (step :: steps) (s ++ t)

/-- The text of a path without the point before its first key. -/
def unpointed : List Char → List Char
  | '.' :: r => r
  | r        => r

variable {step : Step} {steps found : List Step} {s t text : List Char} {fuel : Nat}

/-! ### Names and brackets -/

namespace SpellsName

theorem ne_nil (h : SpellsName step s) : s ≠ [] := by
  cases h with
  | key hne _ _ _ => exact hne
  | star => exact List.cons_ne_nil _ _

theorem trim_eq (h : SpellsName step s) : trim s = s := by
  cases h with
  | key _ htrim _ _ => exact htrim
  | star => decide

theorem startsStep_eq_false (h : SpellsName step s) : ∀ c ∈ s, startsStep c = false := by
  cases h with
  | key _ _ hstart _ => exact hstart
  | star => simp [startsStep]

theorem nameSteps_eq (h : SpellsName step s) : nameSteps s = [step] := by
  rw [nameSteps, h.trim_eq]
  cases h with
  | key hne _ _ hstar => rw [if_neg hstar, if_neg (by simpa using hne)]
  | star => rfl

end SpellsName

/-- A text in quotes is no integer. -/
theorem readInteger?_quoted (s : List Char) : readInteger? ('\'' :: s) = none := rfl

/-- A key in quotes is what stands between them. -/
theorem bracketStep_quoted (hhead : ∀ c ∈ s.head?, c ≠ '\'' ∧ c ≠ '"')
    (hlast : ∀ c ∈ s.getLast?, c ≠ '\'' ∧ c ≠ '"') :
    bracketStep ('\'' :: (s ++ ['\''])) = .key (String.ofList s) := by
  have htrim : trim ('\'' :: (s ++ ['\''])) = '\'' :: (s ++ ['\'']) :=
    trim_cons_append (by decide) (by decide) s
  have hinner (p : Char → Bool) (hp : p '\'' = true) (hother : ∀ c, c ≠ '\'' ∧ c ≠ '"' → p c = false) :
      ((('\'' :: (s ++ ['\''])).dropWhile p).reverse.dropWhile p).reverse = s := by
    rw [List.dropWhile_cons_of_pos hp]
    cases s with
    | nil => simp [hp]
    | cons a r =>
      have hopen : (a :: r ++ ['\'']).dropWhile p = a :: r ++ ['\''] :=
        List.dropWhile_cons_of_neg (by simp [hother a (hhead a rfl)])
      have hclose : List.rdropWhile p (a :: r) = a :: r :=
        List.rdropWhile_eq_self_iff.mpr fun hne => by
          simp [hother _ (hlast _ (List.getLast?_eq_some_getLast hne))]
      rw [hopen]
      exact (List.rdropWhile_concat_pos _ _ _ hp).trans hclose
  rw [bracketStep, htrim]
  dsimp only
  rw [if_neg (by simp), readInteger?_quoted, hinner _ (by decide) fun c hc => by simp [hc.1, hc.2]]

namespace SpellsContent

theorem close_not_mem (h : SpellsContent step s) : ']' ∉ s := by
  cases h with
  | key hclose _ _ => simpa using hclose
  | index h => exact h.isNumeral.not_mem (by decide) (by decide)
  | star => decide

theorem bracketStep_eq (h : SpellsContent step s) : bracketStep s = step := by
  cases h with
  | key _ hhead hlast => exact bracketStep_quoted hhead hlast
  | index h =>
    have hstar : s ≠ ['*'] := by
      rintro rfl
      exact h.isNumeral.not_mem (c := '*') (by decide) (by decide) List.mem_cons_self
    rw [bracketStep, trim_of_forall h.isNumeral.isBlank_eq_false]
    dsimp only
    rw [if_neg hstar, h.readInteger?_eq]
  | star => rfl

end SpellsContent

/-! ### Reading steps -/

theorem stepsFrom?_nil (found : List Step) (fuel : Nat) :
    stepsFrom? found fuel [] = some found.reverse := by
  cases fuel <;> rfl

theorem stepsFrom?_point (found : List Step) (fuel : Nat) (s : List Char) :
    stepsFrom? found (fuel + 1) ('.' :: s) = stepsFrom? found fuel s := rfl

theorem stepsFrom?_bracket (hclose : ']' ∉ s) (found : List Step) (fuel : Nat) (t : List Char) :
    stepsFrom? found (fuel + 1) ('[' :: (s ++ ']' :: t)) =
      stepsFrom? (bracketStep s :: found) fuel t := by
  have hspan : (s ++ ']' :: t).span (· ≠ ']') = (s, ']' :: t) := by
    have hs : ∀ c ∈ s, (fun c => decide (c = ']')) c = false := fun c hc => by
      simpa using fun heq : c = ']' => hclose (heq ▸ hc)
    have hbreak := breakAt_append (t := ']' :: t) hs (by simp)
    simpa [breakAt] using hbreak
  rw [stepsFrom?, if_neg (by decide), if_pos rfl, hspan]

/-- A name is read up to the character that starts another step. -/
theorem stepsFrom?_name (hne : s ≠ []) (hs : ∀ c ∈ s, startsStep c = false)
    (ht : ∀ c ∈ t.head?, startsStep c = true) (found : List Step) (fuel : Nat) :
    stepsFrom? found (fuel + 1) (s ++ t) = stepsFrom? ((nameSteps s).reverse ++ found) fuel t := by
  obtain ⟨c, r, rfl⟩ := List.exists_cons_of_ne_nil hne
  obtain ⟨hpoint, hbracket⟩ : c ≠ '.' ∧ c ≠ '[' := by
    simpa [startsStep] using hs c List.mem_cons_self
  have hbreak := breakAt_append hs ht
  rw [List.cons_append] at hbreak ⊢
  rw [stepsFrom?, if_neg hpoint, if_neg hbracket, hbreak]

/-- **A step** is read from what is written for it, if another step follows or none. -/
theorem exists_stepsFrom?_eq (h : SpellsStep step s) (ht : ∀ c ∈ t.head?, startsStep c = true)
    (hfuel : (s ++ t).length ≤ fuel) (found : List Step) :
    ∃ left, t.length ≤ left ∧
      stepsFrom? found fuel (s ++ t) = stepsFrom? (step :: found) left t := by
  -- the point and the name after it are read one after the other, a bracket at once
  cases h with
  | @dotted s h =>
    have hlength := List.length_pos_iff.mpr h.ne_nil
    obtain ⟨left, rfl⟩ : ∃ n, fuel = n + 2 := ⟨fuel - 2, by simp at hfuel; omega⟩
    refine ⟨left, by simp at hfuel; omega, ?_⟩
    rw [List.cons_append, stepsFrom?_point, stepsFrom?_name h.ne_nil h.startsStep_eq_false ht,
      h.nameSteps_eq]
    rfl
  | @bracketed s h =>
    obtain ⟨left, rfl⟩ : ∃ n, fuel = n + 1 := ⟨fuel - 1, by simp at hfuel; omega⟩
    refine ⟨left, by simp at hfuel; omega, ?_⟩
    rw [List.cons_append, List.append_assoc, List.singleton_append,
      stepsFrom?_bracket h.close_not_mem, h.bracketStep_eq]

namespace Spells

theorem startsStep_head (h : Spells steps text) : ∀ c ∈ text.head?, startsStep c = true := by
  cases h with
  | nil => simp
  | cons h _ => cases h <;> simp [startsStep]

theorem stepsFrom?_eq (h : Spells steps text) (hfuel : text.length ≤ fuel) (found : List Step) :
    stepsFrom? found fuel text = some (found.reverse ++ steps) := by
  induction h generalizing fuel found with
  | nil => rw [stepsFrom?_nil, List.append_nil]
  | @cons step steps s t h hrest ih =>
    obtain ⟨left, hleft, hread⟩ := exists_stepsFrom?_eq h hrest.startsStep_head hfuel found
    rw [hread, ih hleft]
    simp

/-- **A path** is read as the steps it is written for, with the point before its first key or
without it. -/
theorem steps?_eq (h : Spells steps text) : steps? (unpointed text) = some steps := by
  have hread := h.stepsFrom?_eq (Nat.le_refl _) []
  unfold unpointed
  split
  · rwa [List.length_cons, stepsFrom?_point] at hread
  · exact hread

end Spells

/-! ### Ends of a path -/

theorem SpellsStep.trimEnd_eq (h : SpellsStep step s) : trimEnd s = s := by
  cases h with
  | dotted h => exact trimEnd_append (s := ['.']) (by decide) (trimEnd_of_trim h.trim_eq)
  | bracketed h => exact trimEnd_of_trim (trim_cons_append (by decide) (by decide) _)

namespace Spells

theorem trimEnd_eq (h : Spells steps text) : trimEnd text = text := by
  induction h with
  | nil => rfl
  | cons h _ ih => exact trimEnd_append h.trimEnd_eq ih

theorem trim_unpointed (h : Spells steps text) : trim (unpointed text) = unpointed text := by
  cases h with
  | nil => rfl
  | @cons step steps s t h hrest =>
    cases h with
    | dotted h =>
      have htrim := trim_append h.trim_eq h.ne_nil t
      rwa [hrest.trimEnd_eq] at htrim
    | @bracketed s h =>
      have hbracket : trim ('[' :: (s ++ [']'])) = '[' :: (s ++ [']']) :=
        trim_cons_append (by decide) (by decide) s
      have htrim := trim_append hbracket (List.cons_ne_nil _ _) t
      rwa [hrest.trimEnd_eq] at htrim

/-- Without the point before its first key, a path begins with no point. -/
theorem head_unpointed (h : Spells steps text) : (unpointed text).head? ≠ some '.' := by
  cases h with
  | nil => simp [unpointed]
  | @cons step steps s t h hrest =>
    cases h with
    | @dotted s h =>
      obtain ⟨c, r, rfl⟩ := List.exists_cons_of_ne_nil h.ne_nil
      have hc := h.startsStep_eq_false c List.mem_cons_self
      intro heq
      obtain rfl : c = '.' := by simpa [unpointed] using heq
      cases hc
    | bracketed h => simp [unpointed]

theorem head_unpointed_ne_mark (h : Spells steps text) (hmark : ¬ ".$".toList <+: text) :
    (unpointed text).head? ≠ some '$' := by
  have hstart := h.startsStep_head
  unfold unpointed
  split
  · next r =>
    intro hhead
    obtain ⟨r, rfl⟩ := List.head?_eq_some_iff.mp hhead
    exact hmark ⟨r, rfl⟩
  · intro hhead
    exact absurd (hstart '$' hhead) (by decide)

theorem eq_nil_iff (h : Spells steps text) : text = [] ↔ steps = [] := by
  cases h with
  | nil => simp
  | cons h _ => cases h <;> simp

end Spells

/-! ### Where a path leads -/

/-- A path that is neither that of the whole value nor that of a search leads where its steps
lead. -/
theorem resolve?_of_steps? {path : List Char} (htrim : trim path = path)
    (hwhole : path ≠ ['$'] ∧ path ≠ "$[*]".toList) (hsearch : (withoutRoot path).head? ≠ some '.')
    (hsteps : steps? (withoutRoot path) = some steps) (root : Json) :
    resolve? root path = ((Cursor.one root).follow? steps).map Cursor.value := by
  unfold resolve?
  rw [htrim]
  dsimp only
  rw [if_neg (by simpa using hwhole)]
  split
  · next heq => simp [heq] at hsearch
  · rw [hsteps, Option.bind_some]

theorem withoutRoot_cons (text : List Char) : withoutRoot ('$' :: text) = unpointed text := by
  unfold withoutRoot unpointed
  split <;> simp_all

theorem withoutRoot_of_head (h : text.head? ≠ some '$') : withoutRoot text = text := by
  unfold withoutRoot
  split <;> simp_all

theorem resolve?_rooted (h : Spells steps text) (hne : text ≠ []) (hwhole : text ≠ "[*]".toList)
    (root : Json) :
    resolve? root ('$' :: text) = ((Cursor.one root).follow? steps).map Cursor.value := by
  have htrim : trim ('$' :: text) = '$' :: text := by
    have htrim := trim_append (s := ['$']) (by decide) (List.cons_ne_nil _ _) text
    rwa [h.trimEnd_eq] at htrim
  refine resolve?_of_steps? htrim ⟨by simpa using hne, by simpa using hwhole⟩ ?_ ?_ root
  · rw [withoutRoot_cons]
    exact h.head_unpointed
  · rw [withoutRoot_cons]
    exact h.steps?_eq

theorem resolve?_unpointed (h : Spells steps text) (hmark : ¬ ".$".toList <+: text) (root : Json) :
    resolve? root (unpointed text) = ((Cursor.one root).follow? steps).map Cursor.value := by
  have hhead := h.head_unpointed_ne_mark hmark
  have hpath : withoutRoot (unpointed text) = unpointed text := withoutRoot_of_head hhead
  refine resolve?_of_steps? h.trim_unpointed ⟨?_, ?_⟩ ?_ ?_ root
  · intro heq
    simp [heq] at hhead
  · intro heq
    simp [heq] at hhead
  · rw [hpath]
    exact h.head_unpointed
  · rw [hpath]
    exact h.steps?_eq

/-- **A path leads where its steps lead**, in whatever spelling.  So does the same path without the
mark of the whole value, and without the point before its first key, if this key does not begin with
that mark itself. -/
theorem resolve?_spelled (h : Spells steps text) (hne : text ≠ []) (hwhole : text ≠ "[*]".toList)
    (root : Json) :
    resolve? root ('$' :: text) = ((Cursor.one root).follow? steps).map Cursor.value ∧
    (∀ other, Spells steps other → other ≠ "[*]".toList →
      resolve? root ('$' :: other) = resolve? root ('$' :: text)) ∧
    (¬ ".$".toList <+: text → resolve? root (unpointed text) = resolve? root ('$' :: text)) := by
  have hrooted := resolve?_rooted h hne hwhole root
  refine ⟨hrooted, fun other hother hwhole' => ?_, fun hmark => ?_⟩
  · have hne' : other ≠ [] := mt (hother.eq_nil_iff.trans h.eq_nil_iff.symm).mp hne
    rw [hrooted, resolve?_rooted hother hne' hwhole']
  · rw [hrooted, resolve?_unpointed h hmark]

/-- A path with its first key after a point, in brackets, and without the mark of the whole value. -/
theorem resolve?_spelled_threeWays :
    let root : Json :=
      .object [("list", .object [("0", .array [.object [("n", .string "x")], .object []])])]
    resolve? root "$.list['0'][-2].n".toList = some (.string "x") ∧
    resolve? root "$['list']['0'][-2]['n']".toList = some (.string "x") ∧
    resolve? root "list['0'][-2].n".toList = some (.string "x") := by
  intro root
  have hlist : SpellsName (.key "list") "list".toList :=
    .key (by decide) (by decide) (by simp [startsStep]) (by decide)
  have hn : SpellsName (.key "n") "n".toList :=
    .key (by decide) (by decide) (by simp [startsStep]) (by decide)
  have hlistQuoted : SpellsContent (.key "list") "'list'".toList :=
    .key (k := "list".toList) (by decide) (by simp) (by simp)
  have hzero : SpellsContent (.key "0") "'0'".toList :=
    .key (k := "0".toList) (by decide) (by simp) (by simp)
  have hnQuoted : SpellsContent (.key "n") "'n'".toList :=
    .key (k := "n".toList) (by decide) (by simp) (by simp)
  have hindex : SpellsContent (.index (-2)) "-2".toList :=
    .index (Text.writesInteger_decimalInt (by decide))
  have hpath : Spells [.key "list", .key "0", .index (-2), .key "n"] ".list['0'][-2].n".toList :=
    .cons (.dotted hlist) (.cons (.bracketed hzero) (.cons (.bracketed hindex)
      (.cons (.dotted hn) .nil)))
  have hother : Spells [.key "list", .key "0", .index (-2), .key "n"]
      "['list']['0'][-2]['n']".toList :=
    .cons (.bracketed hlistQuoted) (.cons (.bracketed hzero) (.cons (.bracketed hindex)
      (.cons (.bracketed hnQuoted) .nil)))
  obtain ⟨hrooted, hspelled, hbare⟩ := resolve?_spelled hpath (by decide) (by decide) root
  have hx : resolve? root "$.list['0'][-2].n".toList = some (.string "x") := hrooted.trans rfl
  exact ⟨hx, (hspelled _ hother (by decide)).trans hx, (hbare (by decide)).trans hx⟩

end Scrape.JsonPath
