/-!
# Keyed

Lists of values under text keys, in the order in which the keys were first put.  Putting under a
key that is there replaces the value and keeps the place.  Objects of JSON and of scripts, the
variables of a scope and the store of a record are all such lists.
-/

namespace Scrape.Keyed

variable {α : Type}

/-- The value under `key`, the first if there are several. -/
def get? (key : String) : List (String × α) → Option α
  | []          => none
  | (k, v) :: r => if k = key then some v else get? key r

/-- The list with `value` under `key`: in its place when the key is there, last when it is not. -/
def put (key : String) (value : α) : List (String × α) → List (String × α)
  | []          => [(key, value)]
  | (k, v) :: r => if k = key then (k, value) :: r else (k, v) :: put key value r

/-- The list without what stands under `key`. -/
def erase (key : String) (fields : List (String × α)) : List (String × α) :=
  fields.filter (fun f => f.1 ≠ key)

/-- Whether something stands under `key`. -/
def has (key : String) (fields : List (String × α)) : Bool := (get? key fields).isSome

/-- `fields` with the values of `more` put one after the other. -/
def putAll (fields more : List (String × α)) : List (String × α) :=
  more.foldl (fun acc f => put f.1 f.2 acc) fields

theorem get?_put_self (key : String) (value : α) (fields : List (String × α)) :
    get? key (put key value fields) = some value := by
  induction fields with
  | nil => simp [put, get?]
  | cons f r ih => by_cases h : f.1 = key <;> simp [put, get?, h, ih]

theorem get?_put_of_ne {key other : String} (h : key ≠ other) (value : α)
    (fields : List (String × α)) : get? other (put key value fields) = get? other fields := by
  induction fields with
  | nil => simp [put, get?, h]
  | cons f r ih =>
    by_cases hk : f.1 = key
    · have : f.1 ≠ other := hk ▸ h
      simp [put, get?, hk, h]
    · simp [put, get?, hk, ih]

theorem get?_put (key : String) (value : α) (fields : List (String × α)) (other : String) :
    get? other (put key value fields) = if key = other then some value else get? other fields := by
  split
  · rename_i heq
    rw [← heq, get?_put_self]
  · rename_i hne
    rw [get?_put_of_ne hne]

/-! ### What stands in a list -/

theorem mem_of_get? {key : String} {value : α} {fields : List (String × α)}
    (h : get? key fields = some value) : (key, value) ∈ fields := by
  induction fields with
  | nil => cases h
  | cons f r ih =>
    by_cases hk : f.1 = key
    · simp only [get?, hk, if_true, Option.some.injEq] at h
      exact List.mem_cons.mpr (.inl (Prod.ext hk.symm h.symm))
    · simp only [get?, hk, if_false] at h
      exact List.mem_cons_of_mem f (ih h)

theorem mem_put {key : String} {value : α} {fields : List (String × α)} {f : String × α}
    (h : f ∈ put key value fields) : f = (key, value) ∨ f ∈ fields := by
  induction fields with
  | nil => exact .inl (List.mem_singleton.mp h)
  | cons first r ih =>
    by_cases hk : first.1 = key
    · simp only [put, hk, if_true, List.mem_cons] at h
      exact h.imp id (List.mem_cons_of_mem first)
    · simp only [put, hk, if_false, List.mem_cons] at h
      rcases h with rfl | h
      · exact .inr List.mem_cons_self
      · exact (ih h).imp id (List.mem_cons_of_mem first)

theorem mem_putAll {fields more : List (String × α)} {f : String × α}
    (h : f ∈ putAll fields more) : f ∈ fields ∨ f ∈ more := by
  induction more generalizing fields with
  | nil => exact .inl h
  | cons first r ih =>
    rcases ih h with hput | hr
    · rcases mem_put hput with rfl | hfields
      · exact .inr List.mem_cons_self
      · exact .inl hfields
    · exact .inr (List.mem_cons_of_mem first hr)

end Scrape.Keyed
