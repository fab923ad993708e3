import Scrape.Json.Path
import Scrape.Proofs.Rule.Fill

/-!
# Json — Lookup

The text of a rule over a JSON value, one level of lookups at a time (`text?_succ`,
`substitute?_succ`).  A lookup that ends at some depth gives the same at every greater depth
(`text?_mono`, `substitute?_mono`), and so do the parts of a rule joined by operators
(`treeText?_mono`).
-/

namespace Scrape.JsonPath

open Scrape.Rule (Composite Spans maxTemplateDepth spanDepth spans)
open Scrape.Text (trim)

variable {root : Json}

/-! ### One level of lookups -/

/-- The text of a rule without an operator, with lookups nested to at most `depth`. -/
def leafText? (root : Json) (depth : Nat) (rule : List Char) : Option String :=
  (substitute? root depth rule).map fun
    | some text => String.ofList text
    | none      => ((resolve? root rule).map Json.output).getD ""

/-- What stands for a template in a path, with lookups nested to at most `depth`. -/
def spanText? (root : Json) (depth : Nat) (inner : List Char) : Option (Option (List Char)) :=
  if maxTemplateDepth ≤ spanDepth templateTags inner then some none
  else (substitute? root depth inner).bind fun filled? =>
    (text? root depth ('$' :: '.' :: filled?.getD inner)).map fun value => some value.toList

theorem text?_succ (depth : Nat) (rule : List Char) :
    text? root (depth + 1) rule =
      if (trim rule).isEmpty then some ""
      else treeText? root (leafText? root depth) (Composite.tree (trim rule)) := by
  rw [text?]
  congr 2
  funext leaf
  cases h : substitute? root depth leaf with
  | none => simp [leafText?, h]
  | some filled? => cases filled? <;> simp [leafText?, h]

theorem substitute?_succ (depth : Nat) (text : List Char) :
    substitute? root (depth + 1) text =
      if !(spans templateTags text).hasSpan then some none
      else ((spans templateTags text).fillM templateTags (spanText? root depth)).map some := by
  rw [substitute?]
  congr 3
  funext inner
  rw [spanText?]
  split
  · rfl
  · cases substitute? root depth inner with
    | none => rfl
    | some filled? => cases h : text? root depth ('$' :: '.' :: filled?.getD inner) <;> simp [h]

/-! ### More depth -/

mutual

/-- A tree of rules keeps its text when more of its leaves have one. -/
theorem treeText?_mono {leaf leaf' : List Char → Option String}
    (h : ∀ {rule text}, leaf rule = some text → leaf' rule = some text) :
    ∀ {t : Composite.Tree} {text : String},
      treeText? root leaf t = some text → treeText? root leaf' t = some text
  | .plain _, _, ht => by
    rw [treeText?] at ht ⊢
    exact h ht
  | .join .all parts, _, ht => by
    simp only [treeText?, Option.map_eq_some_iff] at ht ⊢
    obtain ⟨texts, hparts, rfl⟩ := ht
    exact ⟨texts, allTexts?_mono h hparts, rfl⟩
  | .join .any _, _, ht => by
    simp only [treeText?] at ht ⊢
    exact firstText?_mono h ht
  | .join .interleave _, _, ht => by
    simpa only [treeText?] using ht

theorem allTexts?_mono {leaf leaf' : List Char → Option String}
    (h : ∀ {rule text}, leaf rule = some text → leaf' rule = some text) :
    ∀ {parts : List Composite.Tree} {texts : List String},
      allTexts? root leaf parts = some texts → allTexts? root leaf' parts = some texts
  | [], _, ht => by
    simpa only [allTexts?] using ht
  | t :: ts, _, ht => by
    simp only [allTexts?, Option.bind_eq_bind, Option.bind_eq_some_iff, Option.pure_def,
      Option.some.injEq] at ht ⊢
    obtain ⟨text, htext, texts, htexts, rfl⟩ := ht
    exact ⟨text, treeText?_mono h htext, texts, allTexts?_mono h htexts, rfl⟩

theorem firstText?_mono {leaf leaf' : List Char → Option String}
    (h : ∀ {rule text}, leaf rule = some text → leaf' rule = some text) :
    ∀ {parts : List Composite.Tree} {text : String},
      firstText? root leaf parts = some text → firstText? root leaf' parts = some text
  | [], _, ht => by
    simpa only [firstText?] using ht
  | t :: ts, _, ht => by
    simp only [firstText?, Option.bind_eq_bind, Option.bind_eq_some_iff] at ht ⊢
    obtain ⟨first, hfirst, hrest⟩ := ht
    refine ⟨first, treeText?_mono h hfirst, ?_⟩
    split at hrest
    · next hempty => rw [if_pos hempty]; exact firstText?_mono h hrest
    · next hempty => rw [if_neg hempty]; exact hrest

end

theorem fillM_mono {f g : List Char → Option (Option (List Char))} {t : Spans} {text : List Char}
    (h : ∀ {inner value?}, f inner = some value? → g inner = some value?)
    (ht : t.fillM templateTags f = some text) : t.fillM templateTags g = some text := by
  rw [← ht]
  refine Spans.fillM_congr fun inner hinner => ?_
  obtain ⟨value?, hvalue⟩ := Option.isSome_iff_exists.mp
    (Spans.fillM_isSome_iff.mp (Option.isSome_of_eq_some ht) inner hinner)
  rw [h hvalue, hvalue]

theorem spanText?_mono_of {depth more : Nat}
    (hText : ∀ {rule text}, text? root depth rule = some text → text? root more rule = some text)
    (hFill : ∀ {text filled?}, substitute? root depth text = some filled? →
      substitute? root more text = some filled?)
    {inner : List Char} {value? : Option (List Char)}
    (h : spanText? root depth inner = some value?) : spanText? root more inner = some value? := by
  rw [spanText?] at h ⊢
  split at h
  · next hdeep => rw [if_pos hdeep]; exact h
  · next hdeep =>
    rw [if_neg hdeep]
    obtain ⟨path?, hpath, hvalue⟩ := Option.bind_eq_some_iff.mp h
    obtain ⟨value, htext, rfl⟩ := Option.map_eq_some_iff.mp hvalue
    rw [hFill hpath, Option.bind_some, hText htext, Option.map_some]

/-- A lookup that ends at a depth gives the same at the next. -/
theorem lookup_mono_succ (root : Json) : ∀ depth : Nat,
    (∀ {rule text}, text? root depth rule = some text → text? root (depth + 1) rule = some text) ∧
    (∀ {text filled?}, substitute? root depth text = some filled? →
      substitute? root (depth + 1) text = some filled?)
  | 0 => ⟨fun h => by simp [text?] at h, fun h => by simp [substitute?] at h⟩
  | depth + 1 => by
    obtain ⟨ihText, ihFill⟩ := lookup_mono_succ root depth
    constructor
    · intro rule text h
      rw [text?_succ] at h ⊢
      split at h
      · next hempty => rw [if_pos hempty]; exact h
      · next hempty =>
        rw [if_neg hempty]
        refine treeText?_mono (fun {leaf value} hleaf => ?_) h
        obtain ⟨filled?, hfilled, rfl⟩ := Option.map_eq_some_iff.mp hleaf
        rw [leafText?, ihFill hfilled, Option.map_some]
    · intro text filled? h
      rw [substitute?_succ] at h ⊢
      split at h
      · next hspan => rw [if_pos hspan]; exact h
      · next hspan =>
        rw [if_neg hspan]
        obtain ⟨filled, hfilled, rfl⟩ := Option.map_eq_some_iff.mp h
        rw [fillM_mono (spanText?_mono_of ihText ihFill) hfilled, Option.map_some]

theorem text?_mono {depth more : Nat} {rule : List Char} {text : String} (hle : depth ≤ more)
    (h : text? root depth rule = some text) : text? root more rule = some text := by
  induction hle with
  | refl => exact h
  | step _ ih => exact (lookup_mono_succ root _).1 ih

theorem text_eq_of_text? {depth : Nat} {rule : List Char} {value : String}
    (hle : depth ≤ maxLookups) (h : text? root depth rule = some value) :
    JsonPath.text root rule = value := by
  rw [JsonPath.text, text?_mono hle h, Option.getD_some]

theorem substitute?_mono {depth more : Nat} {text : List Char} {filled? : Option (List Char)}
    (hle : depth ≤ more) (h : substitute? root depth text = some filled?) :
    substitute? root more text = some filled? := by
  induction hle with
  | refl => exact h
  | step _ ih => exact (lookup_mono_succ root _).2 ih

/-- What a text is filled in with does not depend on the depth. -/
theorem substitute?_unique {depth depth' : Nat} {text : List Char} {x y : Option (List Char)}
    (hx : substitute? root depth text = some x) (hy : substitute? root depth' text = some y) :
    x = y := by
  have hx := substitute?_mono (Nat.le_max_left depth depth') hx
  have hy := substitute?_mono (Nat.le_max_right depth depth') hy
  exact Option.some.inj (hx.symm.trans hy)

theorem spanText?_mono {depth more : Nat} {inner : List Char} {value? : Option (List Char)}
    (hle : depth ≤ more) (h : spanText? root depth inner = some value?) :
    spanText? root more inner = some value? :=
  spanText?_mono_of (text?_mono hle) (substitute?_mono hle) h

theorem leafText?_mono {depth more : Nat} {rule : List Char} {text : String} (hle : depth ≤ more)
    (h : leafText? root depth rule = some text) : leafText? root more rule = some text := by
  obtain ⟨filled?, hfilled, rfl⟩ := Option.map_eq_some_iff.mp h
  rw [leafText?, substitute?_mono hle hfilled, Option.map_some]

theorem treeText?_unique {depth depth' : Nat} {t : Composite.Tree} {x y : String}
    (hx : treeText? root (leafText? root depth) t = some x)
    (hy : treeText? root (leafText? root depth') t = some y) : x = y := by
  have hx := treeText?_mono (leafText?_mono (Nat.le_max_left depth depth')) hx
  have hy := treeText?_mono (leafText?_mono (Nat.le_max_right depth depth')) hy
  exact Option.some.inj (hx.symm.trans hy)

/-- A path without operators and templates gives what stands at it. -/
theorem text_of_plain {rule leaf : List Char} (hne : (trim rule).isEmpty = false)
    (htree : Composite.tree (trim rule) = .plain leaf)
    (hspan : (spans templateTags leaf).hasSpan = false) :
    JsonPath.text root rule = ((resolve? root leaf).map Json.output).getD "" := by
  refine @text_eq_of_text? root 2 rule _ (by decide) ?_
  rw [text?_succ, hne, if_neg Bool.false_ne_true, htree, treeText?, leafText?, substitute?_succ,
    hspan]
  rfl

end Scrape.JsonPath
