import Scrape.Proofs.Rule.Span

/-!
# Rule — Fill

Filling in the spans of a text one after the other.  Each span is given its value, in order, and
what stands around the spans is as it was (`fillM_eq_mapM`, `filledWith_none`).  Where filling in a
span may fail, the text is filled in if and only if each of its spans is (`fillM_isSome_iff`), and
what the spans are filled in with decides on the text (`fillM_congr`).
-/

namespace Scrape.Rule.Spans

variable {tags : Tags}

theorem inners_cons (before inner : List Char) (found : List (List Char × List Char))
    (tail : List Char) :
    (Spans.mk ((before, inner) :: found) tail).inners = inner :: (Spans.mk found tail).inners :=
  rfl

section Effects

variable {m : Type → Type} [Monad m] [LawfulMonad m] {f : List Char → m (Option (List Char))}

theorem fillM_nil (tail : List Char) : (Spans.mk [] tail).fillM tags f = pure tail := by
  simp [fillM]

theorem fillM_cons (before inner : List Char) (found : List (List Char × List Char))
    (tail : List Char) :
    (Spans.mk ((before, inner) :: found) tail).fillM tags f = (do
      let value? ← f inner
      let text ← (Spans.mk found tail).fillM tags f
      pure (before ++ value?.getD (written tags inner) ++ text)) := by
  simp [fillM]

/-- A step of filling in: what comes before a span, and what the span is filled in with. -/
def fillStep (tags : Tags) (f : List Char → m (Option (List Char))) (done : List Char)
    (span : List Char × List Char) : m (List Char) := do
  let value? ← f span.2
  pure (done ++ span.1 ++ value?.getD (written tags span.2))

/-- Filling in is a loop over the spans. -/
theorem fillM_eq_foldlM (t : Spans) :
    t.fillM tags f = (do
      let done ← t.spans.foldlM (fillStep tags f) []
      pure (done ++ t.tail)) := by
  obtain ⟨found, tail⟩ := t
  have h : ∀ done, (do
      let rest ← (Spans.mk found tail).fillM tags f
      pure (done ++ rest)) = (do
      let done ← found.foldlM (fillStep tags f) done
      pure (done ++ tail)) := by
    induction found with
    | nil => simp [fillM_nil]
    | cons span found ih =>
      intro done
      obtain ⟨before, inner⟩ := span
      rw [fillM_cons, List.foldlM_cons]
      simp only [fillStep, bind_assoc, pure_bind]
      simp only [← ih, List.append_assoc]
  simpa using h []

/-- The text with a value for each of its spans, which is kept as it is written where there is
none. -/
def filledWith (tags : Tags) (t : Spans) (values : List (Option (List Char))) : List Char :=
  (List.zipWith (fun span value? => span.1 ++ value?.getD (written tags span.2))
    t.spans values).flatten ++ t.tail

/-- Filling in gives each span its value, in order, and changes nothing around them. -/
theorem fillM_eq_mapM (t : Spans) :
    t.fillM tags f = (do
      let values ← t.inners.mapM f
      pure (t.filledWith tags values)) := by
  obtain ⟨found, tail⟩ := t
  induction found with
  | nil => simp [fillM_nil, inners, filledWith]
  | cons span found ih =>
    obtain ⟨before, inner⟩ := span
    rw [fillM_cons, ih, inners_cons, List.mapM_cons]
    simp [filledWith]

end Effects

/-- Where no span has a value, the text is as it was. -/
theorem filledWith_none (tags : Tags) (s : List Char) :
    (Rule.spans tags s).filledWith tags ((Rule.spans tags s).inners.map fun _ => none) = s := by
  have h : ∀ t : Spans, t.filledWith tags (t.inners.map fun _ => none) =
      t.fill tags fun _ => none := by
    rintro ⟨found, tail⟩
    induction found with
    | nil => rfl
    | cons span found ih =>
      obtain ⟨before, inner⟩ := span
      rw [fill_cons, ← ih]
      simp [filledWith, inners]
  rw [h, fill_spans_none]

variable {f g : List Char → Option (Option (List Char))} {t : Spans}

theorem fillM_isSome_iff : (t.fillM tags f).isSome ↔ ∀ inner ∈ t.inners, (f inner).isSome := by
  obtain ⟨found, tail⟩ := t
  induction found with
  | nil => simp [fillM_nil, inners]
  | cons span found ih =>
    obtain ⟨before, inner⟩ := span
    rw [fillM_cons, inners_cons, List.forall_mem_cons, ← ih]
    cases f inner <;> cases (Spans.mk found tail).fillM tags f <;> simp

/-- What the spans of a text are filled in with decides on the text. -/
theorem fillM_congr (h : ∀ inner ∈ t.inners, f inner = g inner) :
    t.fillM tags f = t.fillM tags g := by
  obtain ⟨found, tail⟩ := t
  induction found with
  | nil => simp [fillM_nil]
  | cons span found ih =>
    obtain ⟨before, inner⟩ := span
    rw [inners_cons, List.forall_mem_cons] at h
    rw [fillM_cons, fillM_cons, h.1, ih h.2]

end Scrape.Rule.Spans
