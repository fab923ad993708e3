import Scrape.Text.Blank
import Scrape.Text.Case
import Scrape.Text.Find

/-!
# Html — Unscripted

Written pages without their scripts and styles.  What is left out reaches from a start tag of such
an element to the first end tag of that name after it; letters count in either case.  A start tag
that no end tag follows stays.
-/

namespace Scrape.Html

open Scrape.Text (foldKey isWordChar)

/-- What follows `lead` in `s`, when `s` begins with it up to the case of letters. -/
def afterFolded? : List Char → List Char → Option (List Char)
  | [],     s      => some s
  | _ :: _, []     => none
  | a :: l, c :: s => if foldKey a = foldKey c then afterFolded? l s else none

/-- What follows the start of a tag with a name. -/
def afterOpening? (name s : List Char) : Option (List Char) :=
  (afterFolded? ('<' :: name) s).filter fun r => !r.head?.any isWordChar

/-- What follows an end tag with a name. -/
def afterEnd? (name s : List Char) : Option (List Char) :=
  match (afterFolded? ('<' :: '/' :: name) s).map fun r => r.dropWhile Text.isBlank with
  | some ('>' :: r) => some r
  | _               => none

/-- What follows the first end tag with a name. -/
def afterFirstEnd? (name : List Char) : List Char → Option (List Char)
  | []     => none
  | c :: s =>
    match afterEnd? name (c :: s) with
    | some r => some r
    | none   => afterFirstEnd? name s

/-- The names of the elements that are left out. -/
def scriptNames : List (List Char) := ["script".toList, "style".toList]

/-- What follows the element that is left out, when `s` begins with one. -/
def afterScript? (s : List Char) : Option (List Char) :=
  scriptNames.findSome? fun name => (afterOpening? name s).bind (afterFirstEnd? name)

theorem length_afterFolded? {lead s rest : List Char} (h : afterFolded? lead s = some rest) :
    rest.length + lead.length = s.length := by
  fun_induction afterFolded? lead s with
  | case1 => simp_all
  | case2 => simp at h
  | case3 a l c s _ ih => simp [← ih h]; omega
  | case4 => simp at h

theorem length_afterOpening? {name s rest : List Char} (h : afterOpening? name s = some rest) :
    rest.length < s.length := by
  simp only [afterOpening?, Option.filter_eq_some_iff] at h
  have := length_afterFolded? h.1
  simp at this
  omega

theorem length_afterEnd? {name s rest : List Char} (h : afterEnd? name s = some rest) :
    rest.length < s.length := by
  unfold afterEnd? at h
  split at h
  next r hr =>
    obtain ⟨t, ht, hd⟩ := Option.map_eq_some_iff.1 hr
    have h₁ := length_afterFolded? ht
    have h₂ : (t.dropWhile Text.isBlank).length ≤ t.length := (List.dropWhile_sublist _).length_le
    rw [hd] at h₂
    simp at h h₁ h₂
    subst h
    omega
  next => simp at h

theorem length_afterFirstEnd? {name s rest : List Char}
    (h : afterFirstEnd? name s = some rest) : rest.length < s.length := by
  induction s with
  | nil => simp [afterFirstEnd?] at h
  | cons c s ih =>
    unfold afterFirstEnd? at h
    split at h
    next r hr => simp at h; subst h; exact length_afterEnd? hr
    next => have := ih h; simp; omega

theorem length_afterScript? {s rest : List Char} (h : afterScript? s = some rest) :
    rest.length < s.length := by
  obtain ⟨name, _, hn⟩ := List.exists_of_findSome?_eq_some h
  obtain ⟨r, hr, he⟩ := Option.bind_eq_some_iff.1 hn
  have := length_afterOpening? hr
  have := length_afterFirstEnd? he
  omega

/-- The rest of a text without its scripts and styles, after the characters `acc`, which are held in
reverse. -/
def unscriptedAfter (acc : List Char) : List Char → List Char
  | []     => acc.reverse
  | c :: s =>
    match _h : afterScript? (c :: s) with
    | some rest => unscriptedAfter acc rest
    | none      => unscriptedAfter (c :: acc) s
termination_by s => s.length
decreasing_by
  · exact length_afterScript? _h
  · simp

/-- A text without its scripts and styles. -/
def unscripted (s : List Char) : List Char := unscriptedAfter [] s

end Scrape.Html
