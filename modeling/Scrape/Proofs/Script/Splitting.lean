import Mathlib
import Scrape.Proofs.Pattern.Literal
import Scrape.Proofs.Script.Method
import Scrape.Proofs.Script.Yields

/-!
# Script — Splitting

The methods of texts that split, join and replace.  Splitting a text at a separator and joining the
pieces with another text (`yields_splitJoin`) is one thing with replacing all occurrences of the
separator, although that goes through a search for matches and a template for what is put in their
places.

Main statement (`split_join_replace`): a text that is split and joined with the same separator is
itself, with another separator it is what `replaceAll` gives, and `replace` replaces the first
occurrence.
-/

namespace Scrape.Script

open Run

/-! ### Splitting and joining -/

/-- The pieces of a text at a separator; an empty one stands between any two characters. -/
def piecesAt (separator s : List Char) : List (List Char) :=
  if separator.isEmpty then s.map ([·]) else Text.splitOn separator s

/-- A text that is split and put together again is itself. -/
theorem intercalate_piecesAt (separator s : List Char) :
    separator.intercalate (piecesAt separator s) = s := by
  unfold piecesAt
  split
  · rename_i hempty
    rw [List.isEmpty_iff.mp hempty, List.intercalate]
    induction s with
    | nil => rfl
    | cons c s ih => cases s <;> simp_all
  · exact Text.intercalate_splitOn separator s

theorem textMethod_split (s separator : String) :
    textMethod s "split" [.string separator] =
      .ok (.array ((piecesAt separator.toList s.toList).map .ofChars)) :=
  rfl

/-- Texts are joined if what this gives is not too long. -/
theorem joinItems_ofChars (parts : List (List Char)) (separator : String) :
    joinItems (parts.map .ofChars) [.string separator] =
      if maxStringSize < (String.ofList (separator.toList.intercalate parts)).utf8ByteSize then
        .fault .stringTooLong
      else .ok (.ofChars (separator.toList.intercalate parts)) := by
  have htexts : (parts.map Value.ofChars).map itemText = parts.map String.ofList := by
    rw [List.map_map]
    rfl
  have hjoined : separator.intercalate (parts.map String.ofList) =
      String.ofList (separator.toList.intercalate parts) := by
    rw [← String.toList_inj, String.toList_intercalate, List.map_map, String.toList_ofList]
    simp [Function.comp_def]
  unfold joinItems
  simp only [htexts, foldl_utf8ByteSize]
  change (if maxStringSize < separator.utf8ByteSize * _ + _ then _ else
    Except.ok (Value.string (separator.intercalate _))) = _
  rw [← utf8ByteSize_intercalate, hjoined]
  rfl

/-! ### Calls on variables -/

/-- Splits one variable at another, and joins the pieces with a third. -/
def splitJoin (x separator between : String) : Expr :=
  .call (.member (.call (.member (.name x) (.text "split")) [.name separator]) (.text "join"))
    [.name between]

/-- Replaces one variable in another by a third, in all places or in the first. -/
def replaceCall (all : Bool) (x needle replacement : String) : Expr :=
  .call (.member (.name x) (.text (if all then "replaceAll" else "replace")))
    [.name needle, .name replacement]

variable {σ : State} {x y z s a b : String} (depth : Nat)

theorem yields_splitJoin (hx : σ.lookup? x = some (.string s))
    (hy : σ.lookup? y = some (.string a)) (hz : σ.lookup? z = some (.string b))
    (hsize : (String.ofList (b.toList.intercalate (piecesAt a.toList s.toList))).utf8ByteSize ≤
      maxStringSize) :
    Yields (depth + 3) σ (splitJoin x y z)
      (.ofChars (b.toList.intercalate (piecesAt a.toList s.toList))) := by
  have hsplit : Yields (depth + 2) σ (.call (.member (.name x) (.text "split")) [.name y])
      (.array ((piecesAt a.toList s.toList).map .ofChars)) :=
    (Yields.ofLookup hx).textCall (.cons (.ofLookup hy) .nil) rfl (textMethod_split s a)
  refine hsplit.joinCall (.cons (.ofLookup hz) .nil) ?_
  rw [joinItems_ofChars, if_neg (Nat.not_lt.mpr hsize)]

theorem yields_replaceCall (all : Bool) (hx : σ.lookup? x = some (.string s))
    (hy : σ.lookup? y = some (.string a)) (hz : σ.lookup? z = some (.string b)) :
    Yields (depth + 2) σ (replaceCall all x y z)
      (.ofChars (Pattern.replaceLiteral a.toList all (Rule.template b.toList) s.toList)) := by
  refine (Yields.ofLookup hx).textCall (.cons (.ofLookup hy) (.cons (.ofLookup hz) .nil)) ?_ ?_
  · cases all <;> rfl
  · cases all <;> rfl

/-- The first of the places of a text is where the first cut is made. -/
theorem cut?_of_isLeast {needle s : List Char} {i : Nat}
    (h : IsLeast {i | Text.OccursAt needle s i} i) :
    Text.cut? needle s = some (s.take i, s.drop (i + needle.length)) := by
  obtain ⟨before, rest, heq, hi⟩ := h.1
  obtain ⟨⟨first, last⟩, hcut⟩ := Option.ne_none_iff_exists'.mp
    (mt Text.cut?_eq_none_iff.mp (not_not_intro ⟨before, rest, heq.symm⟩))
  obtain rfl : first.length = i := (Text.isLeast_of_cut? hcut).unique h
  have hsplit := Text.eq_append_of_cut? hcut
  rw [hcut, hsplit, ← List.length_append, List.drop_left, List.append_assoc, List.take_left]

/-- **Splitting, joining and replacing.**  For variables that hold texts: a text of no more bytes
than a text may have, that is split at a separator, which may be empty, and joined with it, is
itself.  If what is looked for is not empty and what is put in its place has no dollar sign, then
`replaceAll` gives what splitting and joining give, if that has no more bytes than a text may have;
and `replace` replaces what is looked for at the first of its places, and gives the text itself if
it has none. -/
theorem split_join_replace (hx : σ.lookup? x = some (.string s))
    (hy : σ.lookup? y = some (.string a)) (hz : σ.lookup? z = some (.string b)) :
    (s.utf8ByteSize ≤ maxStringSize → Yields (depth + 3) σ (splitJoin x y y) (.string s)) ∧
    (a ≠ "" → '$' ∉ b.toList →
      (∃ t, Yields (depth + 2) σ (replaceCall true x y z) (.string t) ∧
        (t.utf8ByteSize ≤ maxStringSize → Yields (depth + 3) σ (splitJoin x y z) (.string t))) ∧
      (∀ i, IsLeast {i | Text.OccursAt a.toList s.toList i} i →
        Yields (depth + 2) σ (replaceCall false x y z)
          (.ofChars (s.toList.take i ++ b.toList ++ s.toList.drop (i + a.length)))) ∧
      ((∀ i, ¬ Text.OccursAt a.toList s.toList i) →
        Yields (depth + 2) σ (replaceCall false x y z) (.string s))) := by
  refine ⟨fun hsize => ?_, fun ha hb => ⟨?_, fun i hi => ?_, fun hnone => ?_⟩⟩
  · have hself := intercalate_piecesAt a.toList s.toList
    have hyields := yields_splitJoin depth hx hy hy (by rwa [hself, String.ofList_toList])
    rwa [hself, Value.ofChars, String.ofList_toList] at hyields
  all_goals
    have hneedle : a.toList ≠ [] := mt String.toList_eq_nil_iff.mp ha
    have hreplace (all : Bool) := yields_replaceCall depth all hx hy hz
  · have hall := hreplace true
    rw [Pattern.replaceLiteral_all hneedle hb] at hall
    refine ⟨_, hall, fun hsize => ?_⟩
    have hpieces : piecesAt a.toList s.toList = Text.splitOn a.toList s.toList :=
      if_neg (by simpa using ha)
    rw [← hpieces] at hsize ⊢
    exact yields_splitJoin depth hx hy hz hsize
  · have hfirst := hreplace false
    rwa [Pattern.replaceLiteral_of_cut? hneedle hb (cut?_of_isLeast hi), String.length_toList]
      at hfirst
  · have hkept := hreplace false
    rwa [Pattern.replaceLiteral_of_absent hneedle false _
      fun hin => (Text.exists_occursAt_iff.mpr hin).elim hnone, Value.ofChars,
      String.ofList_toList] at hkept

/-- The state before a run on a text. -/
def beforeReplacing : State :=
  ((State.initial (.string "baaa.") none Session.empty 100).declare "a" (.string "aa")).declare
    "b" (.string ".+")

/-- What is looked for overlaps itself, and what is put in its place looks like a pattern. -/
theorem split_join_replace_overlapping :
    beforeReplacing.lookup? "result" = some (.string "baaa.") ∧
    beforeReplacing.lookup? "a" = some (.string "aa") ∧
    beforeReplacing.lookup? "b" = some (.string ".+") ∧
    Yields 3 beforeReplacing (splitJoin "result" "a" "a") (.string "baaa.") ∧
    Yields 2 beforeReplacing (replaceCall true "result" "a" "b") (.string "b.+a.") ∧
    Yields 3 beforeReplacing (splitJoin "result" "a" "b") (.string "b.+a.") ∧
    Yields 2 beforeReplacing (replaceCall false "result" "a" "b") (.string "b.+a.") ∧
    Yields 2 beforeReplacing (replaceCall false "result" "b" "a") (.string "baaa.") := by
  have hx : beforeReplacing.lookup? "result" = some (.string "baaa.") := rfl
  have hy : beforeReplacing.lookup? "a" = some (.string "aa") := rfl
  have hz : beforeReplacing.lookup? "b" = some (.string ".+") := rfl
  obtain ⟨hself, hrest⟩ := split_join_replace 0 hx hy hz
  obtain ⟨⟨t, hall, hjoin⟩, hfirst, -⟩ := hrest (by decide) (by decide)
  obtain ⟨-, -, habsent⟩ := (split_join_replace 0 hx hz hy).2 (by decide) (by decide)
  have hreplaced : Yields 2 beforeReplacing (replaceCall true "result" "a" "b") (.string "b.+a.") :=
    rfl
  obtain rfl := Value.string.inj (hreplaced.unique hall)
  have hleast : IsLeast {i | Text.OccursAt "aa".toList "baaa.".toList i} 1 := by
    refine ⟨⟨['b'], ['a', '.'], rfl, rfl⟩, fun i hi => Nat.one_le_iff_ne_zero.mpr ?_⟩
    rintro rfl
    exact absurd (Text.occursAt_iff.mp hi).2 (by decide)
  have hnone : ¬ ".+".toList <:+: "baaa.".toList := by decide
  exact ⟨hx, hy, hz, hself (by decide), hall, hjoin (by decide), hfirst 1 hleast,
    habsent fun i hi => hnone (Text.exists_occursAt_iff.mp ⟨i, hi⟩)⟩

end Scrape.Script
