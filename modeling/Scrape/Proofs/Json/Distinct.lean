import Mathlib.Data.List.Nodup
import Scrape.Json.Parser

/-!
# Json — Distinct keys

Fields are put under keys that stay distinct, and so no value that is read from JSON text holds an
object with a repeated key: the reader puts each field under its key.

Main statement (`hasDistinctKeys_of_parse?`): in a value that is read, all keys are distinct.
-/

namespace Scrape.Json

/-! ### Fields under distinct keys -/

section

variable {α : Type} {fields more : List (String × α)}

theorem put_of_forall_ne {key : String} (h : ∀ f ∈ fields, f.1 ≠ key) (value : α) :
    Keyed.put key value fields = fields ++ [(key, value)] := by
  induction fields with
  | nil => rfl
  | cons f fields ih =>
    rw [List.forall_mem_cons] at h
    rw [Keyed.put, if_neg h.1, ih h.2, List.cons_append]

/-- Fields under distinct keys are put one after the other. -/
theorem putAll_of_nodup (h : ((fields ++ more).map Prod.fst).Nodup) :
    Keyed.putAll fields more = fields ++ more := by
  induction more generalizing fields with
  | nil => exact (List.append_nil fields).symm
  | cons f more ih =>
    have hput : Keyed.put f.1 f.2 fields = fields ++ [f] := by
      refine put_of_forall_ne (fun g hg heq => ?_) f.2
      rw [List.map_append, List.nodup_append] at h
      exact h.2.2 g.1 (List.mem_map_of_mem hg) f.1 (by simp) heq
    have hnext : Keyed.putAll fields (f :: more) = Keyed.putAll (fields ++ [f]) more := by
      rw [← hput]
      rfl
    rw [hnext, ih (by simpa using h), List.append_assoc, List.singleton_append]

/-- A field that is put in a place that is there leaves the keys as they are. -/
theorem map_fst_put {key : String} (h : ∃ f ∈ fields, f.1 = key) (value : α) :
    (Keyed.put key value fields).map Prod.fst = fields.map Prod.fst := by
  induction fields with
  | nil => obtain ⟨f, hf, -⟩ := h; cases hf
  | cons f fields ih =>
    rw [Keyed.put]
    split
    · rename_i hkey
      rw [List.map_cons, List.map_cons, hkey]
    · rename_i hkey
      obtain ⟨g, hg, hgkey⟩ := h
      have hrest : g ∈ fields := (List.mem_cons.mp hg).resolve_left fun heq => hkey (heq ▸ hgkey)
      rw [List.map_cons, List.map_cons, ih ⟨g, hrest, hgkey⟩]

theorem nodup_put (h : (fields.map Prod.fst).Nodup) (key : String) (value : α) :
    ((Keyed.put key value fields).map Prod.fst).Nodup := by
  by_cases hkey : ∃ f ∈ fields, f.1 = key
  · rw [map_fst_put hkey]
    exact h
  · have hnew : ∀ f ∈ fields, f.1 ≠ key := fun f hf heq => hkey ⟨f, hf, heq⟩
    rw [put_of_forall_ne hnew, List.map_append]
    refine h.append (List.nodup_singleton key) fun k hk hkey => ?_
    obtain ⟨f, hf, rfl⟩ := List.mem_map.mp hk
    exact hnew f hf (List.mem_singleton.mp hkey)

theorem nodup_erase (h : (fields.map Prod.fst).Nodup) (key : String) :
    ((Keyed.erase key fields).map Prod.fst).Nodup :=
  h.sublist (List.filter_sublist.map _)

end

/-! ### Values with distinct keys -/

mutual

/-- Whether no object in the value has two fields under one key. -/
def hasDistinctKeys : Json → Bool
  | .array items   => itemsHaveDistinctKeys items
  | .object fields => decide (fields.map Prod.fst).Nodup && fieldsHaveDistinctKeys fields
  | _              => true

/-- Whether no object in the items has two fields under one key. -/
def itemsHaveDistinctKeys : List Json → Bool
  | []     => true
  | j :: r => hasDistinctKeys j && itemsHaveDistinctKeys r

/-- Whether no object in the values of the fields has two fields under one key. -/
def fieldsHaveDistinctKeys : List (String × Json) → Bool
  | []          => true
  | (_, j) :: r => hasDistinctKeys j && fieldsHaveDistinctKeys r

end

theorem hasDistinctKeys_array_iff {items : List Json} :
    (array items).hasDistinctKeys = true ↔ ∀ j ∈ items, j.hasDistinctKeys = true := by
  rw [hasDistinctKeys]
  induction items with
  | nil => simp [itemsHaveDistinctKeys]
  | cons j r ih => simp [itemsHaveDistinctKeys, ih]

theorem hasDistinctKeys_object_iff {fields : List (String × Json)} :
    (object fields).hasDistinctKeys = true ↔
      (fields.map Prod.fst).Nodup ∧ ∀ f ∈ fields, f.2.hasDistinctKeys = true := by
  have hfields : fieldsHaveDistinctKeys fields = true ↔
      ∀ f ∈ fields, f.2.hasDistinctKeys = true := by
    induction fields with
    | nil => simp [fieldsHaveDistinctKeys]
    | cons f r ih => simp [fieldsHaveDistinctKeys, ih]
  rw [hasDistinctKeys, Bool.and_eq_true, decide_eq_true_iff, hfields]

theorem hasDistinctKeys_put {fields : List (String × Json)} {j : Json} (key : String)
    (hfields : (object fields).hasDistinctKeys = true) (hj : j.hasDistinctKeys = true) :
    (object (Keyed.put key j fields)).hasDistinctKeys = true := by
  obtain ⟨hkeys, hvalues⟩ := hasDistinctKeys_object_iff.mp hfields
  exact hasDistinctKeys_object_iff.mpr ⟨nodup_put hkeys key j, fun f hf =>
    (Keyed.mem_put hf).elim (fun heq => heq ▸ hj) (hvalues f)⟩

/-! ### Reading -/

/-- A reader gives only values with distinct keys. -/
def ReadsDistinctKeys (value : Reader) : Prop :=
  ∀ {s r : List Char} {j : Json}, value s = some (j, r) → j.hasDistinctKeys = true

theorem hasDistinctKeys_of_readItems? {value : Reader} (hvalue : ReadsDistinctKeys value)
    {fuel : Nat} {acc items : List Json} {s r : List Char}
    (hacc : ∀ j ∈ acc, j.hasDistinctKeys = true)
    (h : readItems? value fuel acc s = some (items, r)) :
    (array items).hasDistinctKeys = true := by
  induction fuel generalizing acc s with
  | zero => cases h
  | succ fuel ih =>
    rw [readItems?] at h
    split at h
    · cases h
    · rename_i j rest hj
      have hmore : ∀ j' ∈ j :: acc, j'.hasDistinctKeys = true :=
        List.forall_mem_cons.mpr ⟨hvalue hj, hacc⟩
      split at h
      · exact ih hmore h
      · cases h
        exact hasDistinctKeys_array_iff.mpr fun j' hj' => hmore j' (List.mem_reverse.mp hj')
      · cases h

theorem hasDistinctKeys_of_readFields? {value : Reader} (hvalue : ReadsDistinctKeys value)
    {size fuel : Nat} {acc fields : List (String × Json)} {s r : List Char}
    (hacc : (object acc).hasDistinctKeys = true)
    (h : readFields? size value fuel acc s = some (fields, r)) :
    (object fields).hasDistinctKeys = true := by
  induction fuel generalizing acc s with
  | zero => cases h
  | succ fuel ih =>
    rw [readFields?] at h
    split at h
    · split at h
      · cases h
      · rename_i key afterKey hkey
        split at h
        · split at h
          · cases h
          · rename_i j afterValue hj
            have hmore := hasDistinctKeys_put key hacc (hvalue hj)
            dsimp only at h
            split at h
            · exact ih hmore h
            · cases h
              exact hmore
            · cases h
        · cases h
    · cases h

theorem readsDistinctKeys_readValue? (size depth : Nat) :
    ReadsDistinctKeys (readValue? size depth) := by
  induction depth using Nat.strongRecOn with
  | ind depth ih =>
    intro s r j h
    have plain {α : Type} {read? : Option (α × List Char)} {make : α → Json}
        (hmake : ∀ a, (make a).hasDistinctKeys = true)
        (h : read?.map (fun (a, r) => (make a, r)) = some (j, r)) :
        j.hasDistinctKeys = true := by
      obtain ⟨⟨a, _⟩, -, heq⟩ := Option.map_eq_some_iff.mp h
      cases heq
      exact hmake a
    unfold readValue? at h
    split at h
    case h_1 | h_2 | h_3 =>
      cases h
      rfl
    case h_4 | h_5 | h_8 => exact plain (fun _ => rfl) h
    case h_6 =>
      split at h
      · cases h
      · split at h
        · cases h
          rfl
        · obtain ⟨⟨items, _⟩, hitems, heq⟩ := Option.map_eq_some_iff.mp h
          cases heq
          exact hasDistinctKeys_of_readItems? (ih _ (Nat.lt_succ_self _)) (List.forall_mem_nil _)
            hitems
    case h_7 =>
      split at h
      · cases h
      · split at h
        · cases h
          rfl
        · obtain ⟨⟨fields, _⟩, hfields, heq⟩ := Option.map_eq_some_iff.mp h
          cases heq
          exact hasDistinctKeys_of_readFields? (ih _ (Nat.lt_succ_self _)) rfl hfields

/-- **All keys are distinct** in a value that is read. -/
theorem hasDistinctKeys_of_parse? {s : List Char} {j : Json} (h : parse? s = some j) :
    j.hasDistinctKeys = true := by
  rw [parse?] at h
  split at h
  · rename_i v r hv
    split at h
    · cases h
      exact readsDistinctKeys_readValue? _ _ hv
    · cases h
  · cases h

end Scrape.Json
