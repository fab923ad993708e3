import Mathlib.Data.Option.Basic
import Mathlib.Order.Lattice

/-!
# Loop

Evaluations that read and write a state and may be without a result, and loops of them.  One such
evaluation extends another when it gives whatever that one gives (`Extends`).  A loop ends if and
only if each of its steps does from where those before it have led (`exists_foldlM`,
`exists_step_of_foldlM`), and keeps what each of its steps keeps (`foldlM_induction`).  Two loops do
the same where their steps do, from where those before them lead (`run_foldlM_congr`).
-/

namespace Scrape

variable {σ α β : Type}

theorem run_bind_eq_some_iff {m : StateT σ Option α} {f : α → StateT σ Option β} {s : σ}
    {r : β × σ} :
    (m >>= f).run s = some r ↔ ∃ a s', m.run s = some (a, s') ∧ (f a).run s' = some r := by
  rw [StateT.run_bind, Option.bind_eq_bind, Option.bind_eq_some_iff, Prod.exists]

/-- Two evaluations do the same when their parts do, the second part from where the first leads. -/
theorem run_bind_congr {m m' : StateT σ Option α} {f f' : α → StateT σ Option β} {s : σ}
    (hm : m.run s = m'.run s)
    (hf : ∀ a s', m.run s = some (a, s') → (f a).run s' = (f' a).run s') :
    (m >>= f).run s = (m' >>= f').run s := by
  rw [StateT.run_bind, StateT.run_bind, ← hm]
  cases h : m.run s with
  | none => rfl
  | some r => exact hf r.1 r.2 h

/-- The second gives whatever the first gives. -/
def Extends (m m' : StateT σ Option α) : Prop := ∀ s r, m.run s = some r → m'.run s = some r

namespace Extends

variable {m m' : StateT σ Option α}

theorem refl (m : StateT σ Option α) : Extends m m := fun _ _ h => h

theorem bind {f f' : α → StateT σ Option β} (hm : Extends m m') (hf : ∀ a, Extends (f a) (f' a)) :
    Extends (m >>= f) (m' >>= f') := by
  intro s r h
  obtain ⟨a, s', ha, hr⟩ := run_bind_eq_some_iff.mp h
  exact run_bind_eq_some_iff.mpr ⟨a, s', hm s _ ha, hf a s' r hr⟩

theorem map (f : α → β) (hm : Extends m m') : Extends (f <$> m) (f <$> m') := by
  rw [map_eq_pure_bind, map_eq_pure_bind]
  exact hm.bind fun _ => refl _

theorem foldlM {f f' : β → α → StateT σ Option β} (hf : ∀ b a, Extends (f b a) (f' b a))
    (l : List α) (b : β) : Extends (l.foldlM f b) (l.foldlM f' b) := by
  induction l generalizing b with
  | nil => exact refl _
  | cons a l ih =>
    rw [List.foldlM_cons, List.foldlM_cons]
    exact (hf b a).bind ih

end Extends

/-! ### Loops -/

section

variable {f : Nat → β → α → StateT σ Option β}

/-- **A step of a loop that ends**, ends: from where the steps before it lead, to whatever depth
those are taken. -/
theorem exists_step_of_foldlM
    (mono : ∀ {depth more : Nat}, depth ≤ more → ∀ b a, Extends (f depth b a) (f more b a))
    {before after : List α} {a : α} {b b' : β} {s s' : σ} {r : β × σ} {depth depth' : Nat}
    (h : ((before ++ a :: after).foldlM (f depth) b).run s = some r)
    (hbefore : (before.foldlM (f depth') b).run s = some (b', s')) :
    ∃ r', (f depth b' a).run s' = some r' := by
  rw [List.foldlM_append, run_bind_eq_some_iff] at h
  obtain ⟨b₁, s₁, hpre, hrest⟩ := h
  have hpre := Extends.foldlM (mono (Nat.le_max_left depth depth')) before b s _ hpre
  have hbefore := Extends.foldlM (mono (Nat.le_max_right depth depth')) before b s _ hbefore
  obtain ⟨rfl, rfl⟩ := Prod.mk.inj (Option.some.inj (hpre.symm.trans hbefore))
  rw [List.foldlM_cons, run_bind_eq_some_iff] at hrest
  obtain ⟨b₂, s₂, hstep, _⟩ := hrest
  exact ⟨(b₂, s₂), hstep⟩

/-- **A loop ends** at some depth when each of its steps does, from where those before it lead. -/
theorem exists_foldlM
    (mono : ∀ {depth more : Nat}, depth ≤ more → ∀ b a, Extends (f depth b a) (f more b a))
    {l : List α} {b : β} {s : σ}
    (h : ∀ before a after, l = before ++ a :: after → ∀ depth b' s',
      (before.foldlM (f depth) b).run s = some (b', s') →
      ∃ depth r, (f depth b' a).run s' = some r) :
    ∃ depth r, (l.foldlM (f depth) b).run s = some r := by
  induction l generalizing b s with
  | nil => exact ⟨0, (b, s), rfl⟩
  | cons a l ih =>
    obtain ⟨d₁, ⟨b₁, s₁⟩, h₁⟩ := h [] a l rfl 0 b s rfl
    -- a step of the rest comes after the first step, at a depth that is enough for both
    obtain ⟨d₂, r, h₂⟩ := ih (b := b₁) (s := s₁) fun before a' after hl depth b' s' hbefore => by
      refine h (a :: before) a' after (by rw [hl, List.cons_append]) (max d₁ depth) b' s' ?_
      rw [List.foldlM_cons, run_bind_eq_some_iff]
      exact ⟨b₁, s₁, mono (Nat.le_max_left d₁ depth) b a s _ h₁,
        Extends.foldlM (mono (Nat.le_max_right d₁ depth)) before b₁ s₁ _ hbefore⟩
    refine ⟨max d₁ d₂, r, ?_⟩
    rw [List.foldlM_cons, run_bind_eq_some_iff]
    exact ⟨b₁, s₁, mono (Nat.le_max_left d₁ d₂) b a s _ h₁,
      Extends.foldlM (mono (Nat.le_max_right d₁ d₂)) l b₁ s₁ r h₂⟩

end

/-- **Two loops do the same** when each of their steps does, from where those before it lead. -/
theorem run_foldlM_congr {f f' : β → α → StateT σ Option β} {l : List α} {b : β} {s : σ}
    (h : ∀ before a after, l = before ++ a :: after → ∀ b' s',
      (before.foldlM f b).run s = some (b', s') → (f b' a).run s' = (f' b' a).run s') :
    (l.foldlM f b).run s = (l.foldlM f' b).run s := by
  induction l generalizing b s with
  | nil => rfl
  | cons a l ih =>
    rw [List.foldlM_cons, List.foldlM_cons]
    refine run_bind_congr (h [] a l rfl b s rfl) fun b₁ s₁ h₁ => ?_
    refine ih fun before a' after hl b' s' hbefore => ?_
    refine h (a :: before) a' after (by rw [hl, List.cons_append]) b' s' ?_
    rw [List.foldlM_cons, run_bind_eq_some_iff]
    exact ⟨b₁, s₁, h₁, hbefore⟩

/-- **A loop keeps** what each of its steps keeps, from where those before it lead. -/
theorem foldlM_induction {f : β → α → StateT σ Option β} {P : σ → Prop} {l : List α} {b : β}
    {s : σ} {r : β × σ} (hr : (l.foldlM f b).run s = some r) (hs : P s)
    (step : ∀ before a after, l = before ++ a :: after → ∀ b' s' r',
      (before.foldlM f b).run s = some (b', s') → (f b' a).run s' = some r' → P s' → P r'.2) :
    P r.2 := by
  induction l generalizing b s with
  | nil =>
    obtain rfl := Option.some.inj hr
    exact hs
  | cons a l ih =>
    rw [List.foldlM_cons, run_bind_eq_some_iff] at hr
    obtain ⟨b₁, s₁, h₁, hr⟩ := hr
    refine ih hr (step [] a l rfl b s _ rfl h₁ hs) fun before a' after hl b' s' r' hbefore => ?_
    refine step (a :: before) a' after (by rw [hl, List.cons_append]) b' s' r' ?_
    rw [List.foldlM_cons, run_bind_eq_some_iff]
    exact ⟨b₁, s₁, h₁, hbefore⟩

end Scrape
