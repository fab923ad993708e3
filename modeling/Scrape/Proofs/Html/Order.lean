import Mathlib.Data.List.Lex
import Scrape.Proofs.Html.Element

/-!
# Html — Order, its laws

The order of a page, told by the places of elements: an element comes before what is below it, and
of two elements below different children of one element the one below the earlier child comes first
(`Precedes`).  The list of all elements below an element is in this order
(`pairwise_descendants`).

What is below an element stands together: what comes after the element and is not below it comes
after all that is (`Precedes.of_not_reaches`).
-/

namespace Scrape.Html.Element

open Relation (ReflTransGen TransGen)

/-- The first element comes before the second in the order of the page. -/
def Precedes (a b : Element) : Prop := List.Lex (· < ·) a.place.reverse b.place.reverse

variable {e n x y : Element}

theorem Precedes.trans (hxy : x.Precedes y) (hyn : y.Precedes n) : x.Precedes n :=
  List.lex_trans Nat.lt_trans hxy hyn

theorem Precedes.place_ne (h : x.Precedes y) : x.place ≠ y.place := by
  intro hplace
  rw [Precedes, hplace] at h
  exact List.lex_irrefl Nat.lt_irrefl _ h

/-! ### What is below -/

/-- What is reached from an element has a place that goes on from its place. -/
theorem exists_place_reverse_eq (h : ReflTransGen IsChild e x) :
    ∃ further, x.place.reverse = e.place.reverse ++ further := by
  obtain ⟨before, hbefore⟩ := suffix_place h
  exact ⟨before.reverse, by rw [← hbefore, List.reverse_append]⟩

theorem precedes_of_below (h : TransGen IsChild e x) : e.Precedes x := by
  obtain ⟨further, hfurther⟩ := exists_place_reverse_eq h.to_reflTransGen
  have hlength := congrArg List.length hfurther
  rw [Precedes, hfurther]
  cases further with
  | nil =>
    have := length_place_lt h
    simp at hlength
    omega
  | cons i further => simpa using List.Lex.append_left (· < ·) .nil e.place.reverse

/-- Of what is reached from one element, what has a place that goes on from the place of another is
reached from that. -/
theorem reaches_of_suffix (hn : ReflTransGen IsChild e n) (hx : ReflTransGen IsChild e x)
    (h : n.place <:+ x.place) : ReflTransGen IsChild n x := by
  induction hx with
  | refl =>
    obtain rfl := eq_of_place_eq hn .refl (h.eq_of_length_le (suffix_place hn).length_le)
    exact .refl
  | @tail p x hp hx ih =>
    obtain ⟨i, hi⟩ := hx.place
    rw [hi, List.suffix_cons_iff] at h
    rcases h with h | h
    · obtain rfl := eq_of_place_eq hn (hp.tail hx) (h.trans hi.symm)
      exact .refl
    · exact (ih h).tail hx

theorem lex_append_of_not_prefix {l m : List Nat} (h : List.Lex (· < ·) l m) (hlead : ¬ l <+: m)
    (further : List Nat) : List.Lex (· < ·) (l ++ further) m := by
  induction h with
  | nil => exact absurd List.nil_prefix hlead
  | rel h => exact .rel h
  | cons _ ih => exact .cons (ih fun h => hlead (List.cons_prefix_cons.mpr ⟨rfl, h⟩))

/-- **What is below an element stands together.**  What comes after the element and is not reached
from it comes after all that is. -/
theorem Precedes.of_not_reaches (hn : ReflTransGen IsChild e n) (hx : ReflTransGen IsChild e x)
    (h : n.Precedes x) (hnot : ¬ ReflTransGen IsChild n x) (hy : ReflTransGen IsChild n y) :
    y.Precedes x := by
  obtain ⟨further, hfurther⟩ := exists_place_reverse_eq hy
  rw [Precedes, hfurther]
  refine lex_append_of_not_prefix h (fun hlead => hnot ?_) further
  exact reaches_of_suffix hn hx (List.reverse_prefix.mp hlead)

/-! ### The list of what is below -/

theorem pairwise_precedes_childrenFrom (e : Element) (i : Nat) (nodes : List Node) :
    (childrenFrom e i nodes).Pairwise Precedes := by
  induction nodes generalizing i with
  | nil => exact .nil
  | cons n r ih =>
    cases n with
    | element t c =>
      refine List.pairwise_cons.mpr ⟨fun y hy => ?_, ih (i + 1)⟩
      obtain ⟨j, t', c', -, rfl⟩ := mem_childrenFrom_iff.mp hy
      have hplaces : List.Lex (· < ·) [i] [i + 1 + j] := .rel (by omega)
      simpa [Precedes, place] using List.Lex.append_left (· < ·) hplaces e.place.reverse
    | text s => exact ih (i + 1)
    | comment s => exact ih (i + 1)

/-- **All elements below an element** are listed in the order of the page. -/
theorem pairwise_descendants (e : Element) : e.descendants.Pairwise Precedes := by
  induction e using induction_below with
  | h e ih =>
    rw [descendants_eq, List.pairwise_flatMap]
    refine ⟨fun x hx => ?_, ?_⟩
    · exact List.pairwise_cons.mpr
        ⟨fun y hy => precedes_of_below (mem_descendants_iff.mp hy), ih x hx⟩
    · refine (pairwise_precedes_childrenFrom e 0 e.nodes).imp_of_mem fun {x y} hx hy hxy => ?_
      intro a ha b hb
      rw [mem_cons_descendants_iff] at ha hb
      have hxb : x.Precedes b := by
        rcases Relation.reflTransGen_iff_eq_or_transGen.mp hb with rfl | hb
        · exact hxy
        · exact hxy.trans (precedes_of_below hb)
      -- nothing is reached from two children
      refine hxb.of_not_reaches (.single hx) (.head hy hb) (fun h => ?_) ha
      exact hxy.place_ne (place_eq_of_reached hx hy (suffix_place h) (suffix_place hb))

end Scrape.Html.Element
