/-!
# Text — Find

Looking for a text inside another: the first and the last occurrence, the pieces between
occurrences, and replacement.  A place is given by the text before it and the text after it, never
by an offset.
-/

namespace Scrape.Text

/-- What follows `lead` in `s`, when `s` begins with it. -/
def after? : List Char → List Char → Option (List Char)
  | [],     s      => some s
  | _ :: _, []     => none
  | a :: l, c :: s => if a = c then after? l s else none

/-- Whether `s` begins with `lead`. -/
def startsWith (lead s : List Char) : Bool := (after? lead s).isSome

/-- Whether `s` ends with `tail`. -/
def endsWith (tail s : List Char) : Bool := startsWith tail.reverse s.reverse

/-- What precedes `tail` in `s`, when `s` ends with it. -/
def before? (tail s : List Char) : Option (List Char) :=
  (after? tail.reverse s.reverse).map List.reverse

/-- The text before and after the first occurrence of `needle`, after `seen`, which is held in
reverse. -/
def cutAfter? (needle seen : List Char) : List Char → Option (List Char × List Char)
  | []     => if needle.isEmpty then some (seen.reverse, []) else none
  | c :: s =>
    match after? needle (c :: s) with
    | some rest => some (seen.reverse, rest)
    | none      => cutAfter? needle (c :: seen) s

/-- The text before and after the first occurrence of `needle`. -/
def cut? (needle s : List Char) : Option (List Char × List Char) := cutAfter? needle [] s

/-- The text before and after the last occurrence of `needle`. -/
def cutLast? (needle s : List Char) : Option (List Char × List Char) :=
  (cut? needle.reverse s.reverse).map fun (rest, before) => (before.reverse, rest.reverse)

/-- Whether `needle` occurs in `s`. -/
def contains (needle s : List Char) : Bool := (cut? needle s).isSome

/-- The text before and after the first character that satisfies `p`, which starts the second. -/
def breakAt (p : Char → Bool) (s : List Char) : List Char × List Char := s.span (fun c => !p c)

theorem length_after? {lead s rest : List Char} (h : after? lead s = some rest) :
    rest.length + lead.length = s.length := by
  fun_induction after? lead s with
  | case1 => simp_all
  | case2 => simp at h
  | case3 a l s ih => simp [← ih h]; omega
  | case4 => simp at h

theorem length_cutAfter? {needle seen s before rest : List Char}
    (h : cutAfter? needle seen s = some (before, rest)) :
    before.length + needle.length + rest.length = seen.length + s.length := by
  fun_induction cutAfter? needle seen s with
  | case1 seen hn =>
    obtain ⟨rfl, rfl⟩ := by simpa using h
    simp_all
  | case2 => simp at h
  | case3 seen c s r hr =>
    obtain ⟨rfl, rfl⟩ := by simpa using h
    have := length_after? hr
    simp at this ⊢; omega
  | case4 seen c s _ ih =>
    have := ih h
    simp at this ⊢; omega

theorem length_cut? {needle s before rest : List Char} (h : cut? needle s = some (before, rest)) :
    before.length + needle.length + rest.length = s.length := by
  simpa using length_cutAfter? h

/-- The pieces of `s` between the occurrences of a separator, after the pieces `found`, latest
first. -/
def splitAfter (separator : List Char) (found : List (List Char)) (s : List Char) :
    List (List Char) :=
  if _h : separator = [] then (s :: found).reverse else
    match _hc : cut? separator s with
    | none                => (s :: found).reverse
    | some (before, rest) => splitAfter separator (before :: found) rest
termination_by s.length
decreasing_by
  have := length_cut? _hc
  have : 0 < separator.length := List.length_pos_iff.2 _h
  omega

/-- The pieces of `s` between the occurrences of a separator that is not empty, found from the
left; of an empty separator `s` is the one piece. -/
def splitOn (separator s : List Char) : List (List Char) := splitAfter separator [] s

/-- The text with every occurrence of `needle`, found from the left, replaced. -/
def replaceAll (needle replacement s : List Char) : List Char :=
  replacement.intercalate (splitOn needle s)

/-- The letters of ASCII made small, all else kept. -/
def asciiLower (s : List Char) : List Char := s.map Char.toLower

/-- Equality up to the case of the letters of ASCII. -/
def equalIgnoringCase (s t : List Char) : Bool := asciiLower s == asciiLower t

end Scrape.Text
