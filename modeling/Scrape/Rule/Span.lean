import Scrape.Text.Find

/-!
# Rule — Span

Spans between an opening and a closing tag, such as a template in a rule.  Tags nest, and a span
reaches to the closing tag that balances its opening one; so `spans` finds the outermost spans, and
what stands inside them is the matter of whoever fills them in.
-/

namespace Scrape.Rule

open Scrape.Text (after? cut? startsWith)

/-- An opening and a closing tag. -/
structure Tags where
  opening : List Char
  closing : List Char
  deriving DecidableEq

/-- A text taken apart at its spans: the text before each span with the text inside it, and the
text after the last. -/
structure Spans where
  spans : List (List Char × List Char)
  tail : List Char
  deriving DecidableEq

/-- The text up to the closing tag that balances `depth` opening ones, and the text after it.
`skip` characters still belong to a tag, and `inner` holds the text so far in reverse. -/
def closeFrom? (tags : Tags) (depth skip : Nat) (inner : List Char) :
    List Char → Option (List Char × List Char)
  | []     => none
  | c :: s =>
    match skip with
    | skip + 1 => closeFrom? tags depth skip (c :: inner) s
    | 0 =>
      match after? tags.closing (c :: s) with
      | some rest =>
        if depth ≤ 1 then some (inner.reverse, rest)
        else closeFrom? tags (depth - 1) (tags.closing.length - 1) (c :: inner) s
      | none =>
        if startsWith tags.opening (c :: s) then
          closeFrom? tags (depth + 1) (tags.opening.length - 1) (c :: inner) s
        else closeFrom? tags depth 0 (c :: inner) s

theorem length_closeFrom? {tags : Tags} {depth skip : Nat} {inner s body rest : List Char}
    (h : closeFrom? tags depth skip inner s = some (body, rest)) : rest.length ≤ s.length := by
  fun_induction closeFrom? tags depth skip inner s with
  | case1 => simp at h
  | case2 depth inner c s skip ih => have := ih h; simp; omega
  | case3 depth inner c s r hr _ =>
    obtain ⟨_, rfl⟩ := by simpa using h
    have := Text.length_after? hr
    omega
  | case4 depth inner c s r hr _ ih => have := ih h; simp; omega
  | case5 depth inner c s hr _ ih => have := ih h; simp; omega
  | case6 depth inner c s hr _ ih => have := ih h; simp; omega

/-- The outermost spans of a text, after the spans `found`, latest first.  An opening tag that
nothing balances ends the search. -/
def spansFrom (tags : Tags) (found : List (List Char × List Char)) (s : List Char) : Spans :=
  if _ho : tags.opening = [] then ⟨found.reverse, s⟩ else
    match _hc : cut? tags.opening s with
    | none => ⟨found.reverse, s⟩
    | some (before, body) =>
      match _hb : closeFrom? tags 1 0 [] body with
      | none               => ⟨found.reverse, s⟩
      | some (inner, rest) => spansFrom tags ((before, inner) :: found) rest
termination_by s.length
decreasing_by
  have := Text.length_cut? _hc
  have := length_closeFrom? _hb
  have : 0 < tags.opening.length := List.length_pos_iff.2 _ho
  omega

/-- The outermost spans of a text; with an empty tag there are none. -/
def spans (tags : Tags) (s : List Char) : Spans :=
  if tags.opening.isEmpty || tags.closing.isEmpty then ⟨[], s⟩ else spansFrom tags [] s

namespace Spans

/-- Whether there is a span. -/
def hasSpan (t : Spans) : Bool := !t.spans.isEmpty

/-- The texts inside the spans, in order. -/
def inners (t : Spans) : List (List Char) := t.spans.map Prod.snd

/-- The span as it is written. -/
def written (tags : Tags) (inner : List Char) : List Char := tags.opening ++ inner ++ tags.closing

/-- The text with each span replaced by what `f` gives for it, and kept where that is nothing; the
spans are filled in order. -/
def fillM {m : Type → Type} [Monad m] (tags : Tags) (f : List Char → m (Option (List Char)))
    (t : Spans) : m (List Char) := do
  let pieces ← t.spans.mapM fun (before, inner) => do
    let value? ← f inner
    pure (before ++ value?.getD (written tags inner))
  pure (pieces.flatten ++ t.tail)

/-- `fillM` without effects. -/
def fill (tags : Tags) (f : List Char → Option (List Char)) (t : Spans) : List Char :=
  let pieces := t.spans.map fun (before, inner) => before ++ (f inner).getD (written tags inner)
  pieces.flatten ++ t.tail

end Spans

/-- The text with its spans filled in; nothing when it has none. -/
def fillSpans? (tags : Tags) (f : List Char → Option (List Char)) (s : List Char) :
    Option (List Char) :=
  let t := spans tags s
  if t.hasSpan then some (t.fill tags f) else none

/-- The deepest nesting of tags in the rest of a text, from a depth, with the deepest so far.
`skip` characters still belong to a tag. -/
def depthFrom (tags : Tags) (depth deepest skip : Nat) : List Char → Nat
  | []     => deepest
  | c :: s =>
    match skip with
    | skip + 1 => depthFrom tags depth deepest skip s
    | 0 =>
      if startsWith tags.closing (c :: s) then
        depthFrom tags (depth - 1) deepest (tags.closing.length - 1) s
      else if startsWith tags.opening (c :: s) then
        depthFrom tags (depth + 1) (max deepest (depth + 1)) (tags.opening.length - 1) s
      else depthFrom tags depth deepest 0 s

/-- The deepest nesting of tags anywhere in a text. -/
def spanDepth (tags : Tags) (s : List Char) : Nat :=
  if tags.opening.isEmpty || tags.closing.isEmpty then 0 else depthFrom tags 0 0 0 s

/-- The deepest nesting of templates that is resolved. -/
def maxTemplateDepth : Nat := 64

end Scrape.Rule
