import Mathlib
import Scrape.Json.Path

/-!
# Json — Projection

Steps that are taken from several values at once, beside the same steps taken from each of them.
From one value a key of a list stands for the key of its items, and a wildcard takes the fields of
an object; a cursor that holds several values takes neither (`Step.isLostOn`).

Main statement (`distributes_iff`): steps give from several values, in turn, what they give from
each of them, if and only if no step comes from one of these to a value that it is lost on.
-/

namespace Scrape.JsonPath

/-- The values a cursor holds. -/
def Cursor.values : Cursor → List Json
  | one v   => [v]
  | many vs => vs

/-- The values that a step leads to from one value alone. -/
def alone (step : Step) (w : Json) : List Json :=
  ((Cursor.one w).step? step).elim [] Cursor.values

/-- What steps lead to from one value: nothing if one of them fails, the one value that is left, or
the values of a projection. -/
def reached (steps : List Step) (v : Json) : List Json :=
  ((Cursor.one v).follow? steps).elim [] Cursor.values

/-- From several values steps lead to what they lead to from each of them, in turn. -/
def Distributes (steps : List Step) (values : List Json) : Prop :=
  (Cursor.many values).follow? steps = some (.many (values.flatMap (reached steps)))

/-- Whether the step leads somewhere from the value alone where it does not lead when the value is
one of several: a key of a list that has an item with that key, or a wildcard on an object. -/
def Step.isLostOn : Step → Json → Bool
  | .key name, .array items => items.any fun item => (present? name item).isSome
  | .wildcard, .object _    => true
  | _,         _            => false

/-- Some of the steps, taken from the value alone, lead to a single value on which the step after
them is lost. -/
def LosesOn (steps : List Step) (v : Json) : Prop :=
  ∃ before step, before ++ [step] <+: steps ∧
    ∃ w, (Cursor.one v).follow? before = some (.one w) ∧ step.isLostOn w = true

variable {steps : List Step} {step : Step} {values : List Json} {v : Json}

/-! ### One step more -/

theorem follow?_concat (cursor : Cursor) :
    cursor.follow? (steps ++ [step]) = (cursor.follow? steps).bind (Cursor.step? step) := by
  simp [Cursor.follow?, List.foldlM_append]

theorem stepMany_flatMap (step : Step) (values : List Json) (f : Json → List Json) :
    Cursor.stepMany step (values.flatMap f) = values.flatMap fun v => Cursor.stepMany step (f v) := by
  cases step with
  | key name => simp only [Cursor.stepMany, List.filterMap_flatMap]
  | index i  => simp only [Cursor.stepMany, List.filterMap_flatMap]
  | wildcard => simp only [Cursor.stepMany, List.flatMap_assoc]

theorem reached_concat_of_one {w : Json} (h : (Cursor.one v).follow? steps = some (.one w)) :
    reached (steps ++ [step]) v = alone step w := by
  rw [reached, follow?_concat, h]
  rfl

theorem reached_concat_of_not_one (h : ∀ w, (Cursor.one v).follow? steps ≠ some (.one w)) :
    reached (steps ++ [step]) v = Cursor.stepMany step (reached steps v) := by
  rw [reached, reached, follow?_concat]
  match hfollow : (Cursor.one v).follow? steps with
  | none          => cases step <;> rfl
  | some (.many _) => rfl
  | some (.one w)  => exact absurd hfollow (h w)

/-! ### Where a step is lost -/

theorem alone_of_step?_eq {name : String} {w : Json}
    (hw : (Cursor.one w).step? (.key name) = (present? name w).map Cursor.one) :
    Cursor.stepMany (.key name) [w] = alone (.key name) w := by
  rw [alone, hw]
  cases hfield : present? name w <;> simp [Cursor.stepMany, Cursor.values, hfield]

theorem stepMany_singleton_of_not_isLostOn {w : Json} (h : step.isLostOn w = false) :
    Cursor.stepMany step [w] = alone step w := by
  cases step with
  | index i =>
    rw [alone]
    cases hitem : itemAt? i w <;> simp [Cursor.stepMany, Cursor.step?, Cursor.values, hitem]
  | key name =>
    cases w with
    | array items =>
      have hnone : items.filterMap (present? name) = [] := by
        simpa [Step.isLostOn, List.filterMap_eq_nil_iff] using h
      simp [alone, Cursor.stepMany, Cursor.step?, Cursor.values, present?, Json.field?, hnone]
    | null => exact alone_of_step?_eq rfl
    | bool _ => exact alone_of_step?_eq rfl
    | number _ => exact alone_of_step?_eq rfl
    | string _ => exact alone_of_step?_eq rfl
    | object _ => exact alone_of_step?_eq rfl
  | wildcard =>
    cases w with
    | object _ => cases h
    | array items => simp [alone, Cursor.stepMany, Cursor.step?, parts, Cursor.values, Json.items?]
    | null => rfl
    | bool _ => rfl
    | number _ => rfl
    | string _ => rfl

/-- A key that is lost on a list leads to fewer values when the list is one of several. -/
theorem length_lt_of_isLostOn {name : String} {w : Json} (h : (Step.key name).isLostOn w = true) :
    (Cursor.stepMany (.key name) [w]).length < (alone (.key name) w).length := by
  cases w with
  | array items =>
    have hsome : items.filterMap (present? name) ≠ [] := by
      simpa [Step.isLostOn, List.filterMap_eq_nil_iff, Option.isSome_iff_ne_none] using h
    have hlist : Cursor.stepMany (.key name) [.array items] = [] := rfl
    rw [hlist]
    exact List.length_pos_iff.mpr hsome
  | null => cases h
  | bool _ => cases h
  | number _ => cases h
  | string _ => cases h
  | object _ => cases h

/-- A wildcard that is lost on an object leads to smaller values from the object alone. -/
theorem sum_sizeOf_lt_of_isLostOn {w : Json} (h : Step.wildcard.isLostOn w = true) :
    ((alone .wildcard w).map sizeOf).sum < ((Cursor.stepMany .wildcard [w]).map sizeOf).sum := by
  cases w with
  | object fields =>
    have hfields : ((fields.map Prod.snd).map sizeOf).sum < sizeOf fields := by
      clear h
      induction fields with
      | nil => simp
      | cons f r ih =>
        obtain ⟨k, w⟩ := f
        simp at ih ⊢
        omega
    have hself : Cursor.stepMany .wildcard [.object fields] = [.object fields] := rfl
    have halone : alone .wildcard (.object fields) = fields.map Prod.snd := rfl
    rw [hself, halone]
    simp at hfields ⊢
    omega
  | array _ => cases h
  | null => cases h
  | bool _ => cases h
  | number _ => cases h
  | string _ => cases h

theorem stepMany_singleton_ne_of_isLostOn {w : Json} (h : step.isLostOn w = true) :
    Cursor.stepMany step [w] ≠ alone step w := by
  intro heq
  cases step with
  | index i => cases h
  | key name => exact (length_lt_of_isLostOn h).ne (congrArg List.length heq)
  | wildcard =>
    exact (sum_sizeOf_lt_of_isLostOn h).ne (congrArg (fun l => (l.map sizeOf).sum) heq.symm)

/-- Lists that are joined to the same list are the same one by one, if those that differ differ in
weight, and always to the same side. -/
theorem forall_eq_of_flatMap_eq {α β : Type} {f g : α → List β} (weight : β → Nat) {l : List α}
    (hlt : ∀ x ∈ l, f x = g x ∨ ((f x).map weight).sum < ((g x).map weight).sum)
    (heq : l.flatMap f = l.flatMap g) : ∀ x ∈ l, f x = g x := by
  have hsum (f : α → List β) : ((l.flatMap f).map weight).sum =
      (l.map fun x => ((f x).map weight).sum).sum := by
    rw [List.map_flatMap, List.flatMap, List.sum_flatten, List.map_map]
    rfl
  -- where one differs, all of them together do in weight
  by_contra hne
  push Not at hne
  obtain ⟨x, hx, hne⟩ := hne
  have hle : ∀ y ∈ l, ((f y).map weight).sum ≤ ((g y).map weight).sum := fun y hy =>
    (hlt y hy).elim (fun h => h ▸ Nat.le_refl _) Nat.le_of_lt
  have hsums := List.sum_lt_sum _ _ hle ⟨x, hx, (hlt x hx).resolve_left hne⟩
  rw [← hsum, ← hsum, heq] at hsums
  exact Nat.lt_irrefl _ hsums

/-! ### Several values at once -/

theorem stepMany_reached_of_one {w : Json} (h : (Cursor.one v).follow? steps = some (.one w)) :
    Cursor.stepMany step (reached steps v) = Cursor.stepMany step [w] := by
  rw [reached, h]
  rfl

/-- From what the steps lead to from a value, one step more leads where it leads from the value, or
it is lost. -/
theorem stepMany_reached_or (step : Step) (v : Json) :
    Cursor.stepMany step (reached steps v) = reached (steps ++ [step]) v ∨
      ∃ w, (Cursor.one v).follow? steps = some (.one w) ∧ step.isLostOn w = true := by
  by_cases hone : ∃ w, (Cursor.one v).follow? steps = some (.one w)
  · obtain ⟨w, hw⟩ := hone
    cases hlost : step.isLostOn w with
    | true => exact .inr ⟨w, hw, hlost⟩
    | false =>
      rw [stepMany_reached_of_one hw, reached_concat_of_one hw]
      exact .inl (stepMany_singleton_of_not_isLostOn hlost)
  · exact .inl (reached_concat_of_not_one fun w hw => hone ⟨w, hw⟩).symm

/-- If one step more leads from several values where it leads from each of them, it does so one by
one. -/
theorem forall_stepMany_reached_eq
    (heq : values.flatMap (fun v => Cursor.stepMany step (reached steps v)) =
      values.flatMap (reached (steps ++ [step]))) :
    ∀ v ∈ values, Cursor.stepMany step (reached steps v) = reached (steps ++ [step]) v := by
  cases step with
  | index i =>
    intro v _
    refine (stepMany_reached_or (.index i) v).resolve_right ?_
    rintro ⟨w, -, hlost⟩
    cases hlost
  | key name =>
    refine forall_eq_of_flatMap_eq (fun _ => 1) (fun v _ => ?_) heq
    refine (stepMany_reached_or (.key name) v).imp id fun ⟨w, hw, hlost⟩ => ?_
    rw [stepMany_reached_of_one hw, reached_concat_of_one hw]
    simpa using length_lt_of_isLostOn hlost
  | wildcard =>
    refine fun v hv => (forall_eq_of_flatMap_eq sizeOf (fun v _ => ?_) heq.symm v hv).symm
    refine (stepMany_reached_or .wildcard v).imp Eq.symm fun ⟨w, hw, hlost⟩ => ?_
    rw [stepMany_reached_of_one hw, reached_concat_of_one hw]
    exact sum_sizeOf_lt_of_isLostOn hlost

theorem distributes_concat_iff (h : Distributes steps values) :
    Distributes (steps ++ [step]) values ↔ ∀ v ∈ values,
      ¬ ∃ w, (Cursor.one v).follow? steps = some (.one w) ∧ step.isLostOn w = true := by
  have hstep : Distributes (steps ++ [step]) values ↔
      values.flatMap (fun v => Cursor.stepMany step (reached steps v)) =
        values.flatMap (reached (steps ++ [step])) := by
    rw [Distributes, follow?_concat, h]
    simp only [Option.bind_some, Cursor.step?, Option.some.injEq, Cursor.many.injEq,
      stepMany_flatMap]
  rw [hstep]
  constructor
  · rintro heq v hv ⟨w, hw, hlost⟩
    have hsame := forall_stepMany_reached_eq heq v hv
    rw [stepMany_reached_of_one hw, reached_concat_of_one hw] at hsame
    exact stepMany_singleton_ne_of_isLostOn hlost hsame
  · intro hkept
    exact List.flatMap_congr fun v hv => (stepMany_reached_or step v).resolve_right (hkept v hv)

theorem losesOn_concat_iff :
    LosesOn (steps ++ [step]) v ↔ LosesOn steps v ∨
      ∃ w, (Cursor.one v).follow? steps = some (.one w) ∧ step.isLostOn w = true := by
  constructor
  · rintro ⟨before, lost, hprefix, hlost⟩
    rcases List.prefix_concat_iff.mp hprefix with heq | hprefix
    · obtain ⟨hbefore, hstep⟩ := List.append_inj' heq rfl
      cases hbefore
      cases hstep
      exact .inr hlost
    · exact .inl ⟨before, lost, hprefix, hlost⟩
  · rintro (⟨before, lost, hprefix, hlost⟩ | hlost)
    · exact ⟨before, lost, hprefix.trans (List.prefix_append _ _), hlost⟩
    · exact ⟨steps, step, List.prefix_refl _, hlost⟩

/-- **Steps distribute over the values of a projection**, each step of them, if and only if from
none of the values they come alone to a single value on which the next step is lost. -/
theorem distributes_iff (steps : List Step) (values : List Json) :
    (∀ before, before <+: steps → Distributes before values) ↔
      ∀ v ∈ values, ¬ LosesOn steps v := by
  -- from the end, as a projection is followed by one step more
  induction steps using List.reverseRecOn with
  | nil =>
    refine iff_of_true (fun before h => ?_) fun v _ => ?_
    · rw [List.prefix_nil.mp h]
      have hself : values.flatMap (reached []) = values := List.flatMap_singleton' values
      rw [Distributes, hself]
      rfl
    · rintro ⟨before, step, h, -⟩
      simp at h
  | append_singleton steps step ih =>
    simp only [losesOn_concat_iff, not_or]
    constructor
    · intro h
      have hbefore := ih.mp fun before hbefore => h before (hbefore.trans (List.prefix_append _ _))
      have hall := (distributes_concat_iff (h steps (List.prefix_append _ _))).mp
        (h _ (List.prefix_refl _))
      exact fun v hv => ⟨hbefore v hv, hall v hv⟩
    · intro h before hbefore
      have hsteps := ih.mpr fun v hv => (h v hv).1
      rcases List.prefix_concat_iff.mp hbefore with rfl | hbefore
      · exact (distributes_concat_iff (hsteps steps (List.prefix_refl _))).mpr fun v hv => (h v hv).2
      · exact hsteps before hbefore

/-- The path `$.a[0].b` leads to the value under `b` of the items of a list, and `$.a[*].b`, where
that list is one of several values, does not; an object among several values keeps its fields from
a wildcard. -/
theorem listedLists_not_distributes :
    let one : Json := .number (.integer 1)
    reached [.key "b"] (.array [.object [("b", one)]]) = [one] ∧
    (Cursor.many [.array [.object [("b", one)]]]).follow? [.key "b"] = some (.many []) ∧
    ¬ Distributes [.key "b"] [.array [.object [("b", one)]]] ∧
    ¬ Distributes [.wildcard] [.object [("b", one)]] := by
  refine ⟨rfl, rfl, fun h => ?_, fun h => ?_⟩
  · cases h
  · cases h

end Scrape.JsonPath
