import Scrape.Proofs.Chain.Demand
import Scrape.Proofs.Chain.Filter
import Scrape.Proofs.Css.Quoted

/-!
# Chain — Id

The step to an id.  It writes the id in quotes into a selector, with a backslash before each quote
and nothing before a backslash, so that an id with a backslash, a null or a line end is read as
another one, or as none; and of the integers in `id.5` it makes an index set.  A page that holds the
id tells in each of these cases (`selectStep_pageOf`).

Main statement (`selectStep_idStep_iff`): when the step selects by the exact id.
-/

namespace Scrape.Chain

open Scrape.Html (Attribute Element)
open Scrape.Rule (IndexSet splitIndexSuffix splitIndexSuffix_mark lastOf?_append)
open Scrape.Text (isBlank splitOn trim trim_append)

/-- The step to what has an id. -/
def idStep (id : List Char) : List Char := "id.".toList ++ id

/-- Whether an element has an attribute that gives it an id. -/
def hasId (id : List Char) (e : Element) : Bool :=
  e.tag.attrs.contains ⟨.plain, "id", String.ofList id⟩

variable {id : List Char} {n : Node} {set : IndexSet}

/-! ### The selector -/

theorem idSelector_eq (htrim : trim id = id) : idSelector id = Css.quotedText id := by
  rw [idSelector, htrim, Text.replaceAll_singleton, Css.quotedText, Css.escaped, List.append_assoc]
  rfl

theorem anyHolds_idIs (f : Css.Frame) (e : Element) :
    Css.anyHolds [Css.idIs (String.ofList id)] f e = hasId id e := by
  have hname : Css.nameIn e "id" = "id" := by
    unfold Css.nameIn
    split <;> rfl
  have hpasses (a : Attribute) :
      ((false || a.space == .plain) && a.name == "id" &&
        Css.ValueTest.passes ⟨.equals, String.ofList id, .exact⟩ (Css.isPage e) a.value) =
      (a == ⟨.plain, "id", String.ofList id⟩) := by
    obtain ⟨space, name, value⟩ := a
    rw [Bool.eq_iff_iff]
    simp [Css.ValueTest.passes, Css.Comparison.compares, String.ext_iff, and_assoc]
  simp only [Css.idIs, Css.anyHolds, Css.Selector.holds, Css.allHold, Css.Condition.holds,
    Css.AttributeTest.passes, Bool.or_false, Bool.and_true, hname, hpasses, hasId,
    List.any_beq']

theorem select_idIs (id : List Char) (e : Element) :
    (Node.element e).select [Css.idIs (String.ofList id)] =
      (e.descendants.filter (hasId id)).map .element :=
  congrArg (List.map Node.element) (List.filter_congr fun x _ => anyHolds_idIs ⟨e, none⟩ x)

theorem selectId_element (htrim : trim id = id) (hid : ∀ c ∈ id, Css.isVerbatim c = true)
    (e : Element) : selectId (.element e) id = (e.descendants.filter (hasId id)).map .element := by
  rw [selectId, idSelector_eq htrim, Css.parse?_quotedText_of_isVerbatim hid]
  exact select_idIs id e

/-! ### The step -/

theorem trim_idStep (htrim : trim id = id) : trim (idStep id) = idStep id := by
  rw [idStep, trim_append (by decide) (by decide), Text.trimEnd_of_trim htrim]

theorem selectStep_idStep (htrim : trim id = id) (hmark : '!' ∉ id) :
    selectStep n (idStep id) = selectOne n (idStep id) := by
  refine selectStep_of_not_isSpacedExclusion (trim_idStep htrim) fun h => ?_
  have hmem : '!' ∉ idStep id := by
    rw [idStep, List.mem_append]
    exact fun h => h.elim (by decide) hmark
  exact hmem h.1

theorem selectOne_idStep (htrim : trim id = id)
    (hindex : (splitIndexSuffix (idStep id)).2 = none) :
    selectOne n (idStep id) = selectId n id := by
  have hstep := trim_idStep htrim
  rw [selectOne, hstep, splitIndexSuffix_of_none hindex, hstep]
  rfl

/-! ### Index sets -/

theorem lastOf?_of_not_mem {p : Char → Bool} {s : List Char} (h : ∀ c ∈ s, p c = false) :
    Rule.lastOf? p s = none := by
  have hspan : s.reverse.span (fun c => !p c) = (s.reverse, []) := by
    rw [List.span_eq_takeWhile_dropWhile]
    have hpass : ∀ c ∈ s.reverse, (!p c) = true := by simpa using h
    rw [List.takeWhile_eq_self_iff.mpr hpass, List.dropWhile_eq_nil_iff.mpr hpass]
  rw [Rule.lastOf?, hspan]

theorem exists_last_of_mem {c : Char} {s : List Char} (h : c ∈ s) :
    ∃ front rest, s = front ++ c :: rest ∧ c ∉ rest := by
  obtain ⟨rest, front, heq, hrest⟩ := List.eq_append_cons_of_mem (List.mem_reverse.mpr h)
  refine ⟨front.reverse, rest.reverse, ?_, by simpa using hrest⟩
  rw [← List.reverse_reverse s, heq]
  simp

/-- An index set in brackets at the end of the step is one at the end of the id. -/
theorem splitIndexSuffix_idStep_bracket {front : List Char} (htrim : trim id = id)
    (hid : (splitIndexSuffix id).2 = none) (hlast : id = front ++ [']']) :
    (splitIndexSuffix (idStep id)).2 = none := by
  have hend : (idStep id).getLast? = some ']' := by
    rw [idStep, hlast, ← List.append_assoc, List.getLast?_concat]
  rw [splitIndexSuffix, trim_idStep htrim, hend]
  -- the last opening bracket of the step is that of the id, as there is none before the id
  by_cases hopen : '[' ∈ front
  · obtain ⟨body, content, rfl, hcontent⟩ := exists_last_of_mem hopen
    have hrest : ∀ c ∈ content ++ [']'], decide (c = '[') = false := by
      intro c hc
      refine decide_eq_false fun heq => ?_
      rw [heq, List.mem_append, List.mem_singleton] at hc
      exact hc.elim hcontent (by decide)
    have hwhole : idStep id = ("id.".toList ++ body) ++ '[' :: (content ++ [']']) := by
      rw [idStep, hlast]
      simp
    have hsplit : Rule.lastOf? (· = '[') (idStep id) =
        some ("id.".toList ++ body, '[', content ++ [']']) := by
      rw [hwhole]
      exact lastOf?_append _ (decide_eq_true rfl) hrest
    rw [hsplit]
    dsimp only
    rw [List.dropLast_concat]
    cases hset : IndexSet.ofBracket? content with
    | none => rfl
    | some set =>
      have hsome := Rule.splitIndexSuffix_bracket hset body
      rw [hlast, List.append_assoc, List.cons_append, hsome] at hid
      cases hid
  · have hnone : Rule.lastOf? (· = '[') (idStep id) = none := by
      refine lastOf?_of_not_mem fun c hc => decide_eq_false fun heq => ?_
      rw [heq, idStep, hlast, List.mem_append, List.mem_append, List.mem_singleton] at hc
      exact hc.elim (by decide) fun hc => hc.elim hopen (by decide)
    rw [hnone]
    rfl

/-- The list after a mark that is split off as a set is what is read as that set. -/
theorem splitIndexSuffix_of_set {body list : List Char}
    (htrim : trim (body ++ '.' :: list) = body ++ '.' :: list)
    (hlast : (body ++ '.' :: list).getLast? ≠ some ']') (hlist : ∀ d ∈ list, d ≠ '.' ∧ d ≠ '!')
    (h : (splitIndexSuffix (body ++ '.' :: list)).2 = some set) :
    splitIndexSuffix (body ++ '.' :: list) = (body, some set) ∧
      (splitOn [':'] list).all IndexSet.isInteger = true ∧
      IndexSet.ofList? '.' list = some set := by
  rw [splitIndexSuffix_mark htrim hlast (.inl rfl) hlist] at h ⊢
  split at h
  · next hbody =>
    rw [if_pos hbody]
    cases hset : IndexSet.ofList? '.' list with
    | none =>
      rw [hset] at h
      cases h
    | some set' =>
      rw [hset] at h
      cases h
      exact ⟨rfl, (Bool.and_eq_true_iff.mp hbody).2, rfl⟩
  · cases h

/-- If the step to an id has an index set at its end, and the id has none, then nothing is left of
the id when the set is split off. -/
theorem splitIndexSuffix_idStep (htrim : trim id = id) (hmark : '!' ∉ id)
    (hid : (splitIndexSuffix id).2 = none) (h : (splitIndexSuffix (idStep id)).2 = some set) :
    splitIndexSuffix (idStep id) = ("id".toList, some set) ∨
      splitIndexSuffix (idStep id) = ("id.".toList, some set) := by
  have hstep := trim_idStep htrim
  have hlast : id.getLast? ≠ some ']' := by
    intro hlast
    obtain ⟨front, hfront⟩ := List.getLast?_eq_some_iff.mp hlast
    rw [splitIndexSuffix_idStep_bracket htrim hid hfront] at h
    cases h
  have hstepLast : (idStep id).getLast? ≠ some ']' := by
    rw [idStep, List.getLast?_append]
    cases hend : id.getLast? with
    | none => decide
    | some c =>
      rw [hend] at hlast
      exact hlast
  have hmarks {list : List Char} (hlist : list <:+ id) (hpoint : '.' ∉ list) :
      ∀ d ∈ list, d ≠ '.' ∧ d ≠ '!' := fun d hd =>
    ⟨fun heq => hpoint (heq ▸ hd), fun heq => hmark (hlist.subset (heq ▸ hd))⟩
  by_cases hpoint : '.' ∈ id
  · obtain ⟨body, list, heq, hlist⟩ := exists_last_of_mem hpoint
    have hlist' := hmarks ⟨body ++ ['.'], by simp [heq]⟩ hlist
    have hwhole : idStep id = ("id.".toList ++ body) ++ '.' :: list := by
      rw [idStep, heq, List.append_assoc]
    rw [hwhole] at h hstep hstepLast ⊢
    obtain ⟨hsplit, hall, hset⟩ := splitIndexSuffix_of_set hstep hstepLast hlist' h
    -- the set would be one of the id too, if something stood before the point
    have hbody : body = [] := by
      by_contra hne
      rw [heq] at hid htrim hlast
      have hpass : (!body.isEmpty && (splitOn [':'] list).all IndexSet.isInteger) = true := by
        simpa [hne] using hall
      rw [splitIndexSuffix_mark htrim hlast (.inl rfl) hlist', if_pos hpass, hset] at hid
      cases hid
    rw [hbody] at hsplit ⊢
    exact .inr hsplit
  · have hwhole : idStep id = "id".toList ++ '.' :: id := rfl
    rw [hwhole] at h hstep hstepLast ⊢
    exact .inl (splitIndexSuffix_of_set hstep hstepLast
      (hmarks (List.suffix_refl id) hpoint) h).1

/-! ### A page with one id -/

/-- An element with one below it, which has an id. -/
def pageOf (id : List Char) : Element :=
  .top ⟨.html, "p", []⟩ [.element ⟨.html, "p", [⟨.plain, "id", String.ofList id⟩]⟩ []]

theorem filter_hasId_pageOf (id other : List Char) :
    (pageOf id).descendants.filter (hasId other) =
      if other = id then (pageOf id).descendants else [] := by
  have hchild (x : Element) (hx : x ∈ (pageOf id).descendants) :
      hasId other x = decide (other = id) := by
    obtain rfl := List.mem_singleton.mp hx
    rw [Bool.eq_iff_iff]
    simp [hasId, Element.tag, String.ofList_inj]
  rw [List.filter_congr hchild]
  split
  · next heq => simp [heq]
  · next hne => simp [hne]

/-- The step does not find the id on its page, if an index set is split off it. -/
theorem selectOne_pageOf_of_set (hne : id ≠ []) (htrim : trim id = id) (hmark : '!' ∉ id)
    (hid : (splitIndexSuffix id).2 = none) (h : (splitIndexSuffix (idStep id)).2 = some set) :
    selectOne (.element (pageOf id)) (idStep id) = [] := by
  rw [selectOne, trim_idStep htrim]
  rcases splitIndexSuffix_idStep htrim hmark hid h with hsplit | hsplit
  · rw [hsplit]
    exact picked_nil (some set)
  · rw [hsplit]
    change picked (some set) (selectId (.element (pageOf id)) []) = []
    rw [selectId_element rfl (List.forall_mem_nil _), filter_hasId_pageOf, if_neg hne.symm]
    exact picked_nil (some set)

/-- The step does not find the id on its page, if a character of it does not stand for itself. -/
theorem selectId_pageOf_of_not_isVerbatim (htrim : trim id = id) (hsafe : ¬ ['\\', '"'] <:+: id)
    (h : ∃ c ∈ id, Css.isVerbatim c = false) : selectId (.element (pageOf id)) id = [] := by
  rw [selectId, idSelector_eq htrim]
  rcases Css.parse?_quotedText_of_not_isVerbatim hsafe h with hnone | ⟨other, hother, hsome⟩
  · rw [hnone]
  · rw [hsome]
    dsimp only
    rw [select_idIs, filter_hasId_pageOf, if_neg hother]
    rfl

/-- **A page that tells**: the step does not find the id there, if an index set is split off it or a
character of the id does not stand for itself. -/
theorem selectStep_pageOf (hne : id ≠ []) (htrim : trim id = id) (hmark : '!' ∉ id)
    (hid : (splitIndexSuffix id).2 = none) (hsafe : ¬ ['\\', '"'] <:+: id)
    (h : ¬ ((splitIndexSuffix (idStep id)).2 = none ∧ ∀ c ∈ id, Css.isVerbatim c = true)) :
    selectStep (.element (pageOf id)) (idStep id) = [] := by
  rw [selectStep_idStep htrim hmark]
  cases hindex : (splitIndexSuffix (idStep id)).2 with
  | some set => exact selectOne_pageOf_of_set hne htrim hmark hid hindex
  | none =>
    have hverbatim : ∃ c ∈ id, Css.isVerbatim c = false := by
      by_contra hall
      exact h ⟨hindex, by simpa using hall⟩
    rw [selectOne_idStep htrim hindex]
    exact selectId_pageOf_of_not_isVerbatim htrim hsafe hverbatim

/-! ### Exact ids -/

/-- **Exact ids**: the step to an id selects below each element what has the id, in the order of the
page, if and only if no index set is split off the step and each character of the id stands for
itself in quotes: it is no backslash, no null and no line end.  Ids in which a quote follows right
on a backslash are left aside: there the quote ends the string, and what follows it is read as a
part of the selector. -/
theorem selectStep_idStep_iff (hne : id ≠ []) (htrim : trim id = id) (hmark : '!' ∉ id)
    (hid : (splitIndexSuffix id).2 = none) (hsafe : ¬ ['\\', '"'] <:+: id) :
    (∀ e : Element, selectStep (.element e) (idStep id) =
      (e.descendants.filter (hasId id)).map .element) ↔
    (splitIndexSuffix (idStep id)).2 = none ∧
      ∀ c ∈ id, c ≠ '\\' ∧ c ≠ '\x00' ∧ Css.isLineEnd c = false := by
  have hverbatim : (∀ c ∈ id, c ≠ '\\' ∧ c ≠ '\x00' ∧ Css.isLineEnd c = false) ↔
      ∀ c ∈ id, Css.isVerbatim c = true := by
    simp only [Css.isVerbatim_iff, and_assoc]
  rw [hverbatim]
  constructor
  · intro hexact
    by_contra h
    have hfound := hexact (pageOf id)
    rw [selectStep_pageOf hne htrim hmark hid hsafe h, filter_hasId_pageOf, if_pos rfl] at hfound
    cases hfound
  · rintro ⟨hindex, hall⟩ e
    rw [selectStep_idStep htrim hmark, selectOne_idStep htrim hindex]
    exact selectId_element htrim hall e

/-- A quote in an id does no harm. -/
theorem selectStep_idStep_quote :
    selectStep (.element (pageOf ['a', '"', 'b'])) (idStep ['a', '"', 'b']) =
      ((pageOf ['a', '"', 'b']).descendants.filter (hasId ['a', '"', 'b'])).map .element := by
  have hindex : (splitIndexSuffix (idStep ['a', '"', 'b'])).2 = none := by
    change (splitIndexSuffix ("id".toList ++ '.' :: ['a', '"', 'b'])).2 = none
    rw [splitIndexSuffix_mark (by decide) (by decide) (.inl rfl) (by simp),
      Text.splitOn_of_not_mem (by decide)]
    rfl
  exact (selectStep_idStep_iff (by decide) (by decide) (by decide) rfl (by decide)).mpr
    ⟨hindex, by simp [Css.isLineEnd]⟩ _

/-- An id with a backslash is not found. -/
theorem selectStep_idStep_backslash :
    selectStep (.element (pageOf ['a', '\\', 'b'])) (idStep ['a', '\\', 'b']) ≠
      ((pageOf ['a', '\\', 'b']).descendants.filter (hasId ['a', '\\', 'b'])).map .element := by
  have hverbatim : ¬ ∀ c ∈ ['a', '\\', 'b'], Css.isVerbatim c = true :=
    fun h => absurd (h '\\' (by decide)) (by decide)
  rw [selectStep_pageOf (by decide) (by decide) (by decide) rfl (by decide)
    fun h => hverbatim h.2, filter_hasId_pageOf, if_pos rfl]
  exact (List.cons_ne_nil _ _).symm

end Scrape.Chain
