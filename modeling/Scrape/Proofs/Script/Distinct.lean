import Scrape.Proofs.Json.Distinct
import Scrape.Proofs.Script.Hereditary.Machine

/-!
# Script — Distinct keys

JSON survives scripts.  A value of JSON that is made a value of scripts and written as JSON again is
what it was, but that its numbers have their normal form (`normalized`).  In an object of a script
the keys are distinct: this is so of what is read from JSON, putting and removing properties keep
it, and so it is a hereditary property (`hereditary_hasDistinctKeys`).  Hence no property of an
object hides another one when the object is written.

Main statement (`json_survives`): the way from JSON and back, the runs of scripts, and the way of
objects to JSON.
-/

namespace Scrape

/-! ### Values with distinct keys -/

namespace Script.Value

mutual

/-- Whether no object in the value has two properties under one key. -/
def hasDistinctKeys : Value → Bool
  | .array items   => itemsHaveDistinctKeys items
  | .object fields => decide (fields.map Prod.fst).Nodup && fieldsHaveDistinctKeys fields
  | _              => true

/-- Whether no object in the items has two properties under one key. -/
def itemsHaveDistinctKeys : List Value → Bool
  | []     => true
  | v :: r => hasDistinctKeys v && itemsHaveDistinctKeys r

/-- Whether no object in the values of the properties has two properties under one key. -/
def fieldsHaveDistinctKeys : List (String × Value) → Bool
  | []          => true
  | (_, v) :: r => hasDistinctKeys v && fieldsHaveDistinctKeys r

end

theorem hasDistinctKeys_array_iff {items : List Value} :
    (array items).hasDistinctKeys = true ↔ ∀ v ∈ items, v.hasDistinctKeys = true := by
  rw [hasDistinctKeys]
  induction items with
  | nil => simp [itemsHaveDistinctKeys]
  | cons v r ih => simp [itemsHaveDistinctKeys, ih]

theorem hasDistinctKeys_object_iff {fields : List (String × Value)} :
    (object fields).hasDistinctKeys = true ↔
      (fields.map Prod.fst).Nodup ∧ ∀ f ∈ fields, f.2.hasDistinctKeys = true := by
  have hfields : fieldsHaveDistinctKeys fields = true ↔
      ∀ f ∈ fields, f.2.hasDistinctKeys = true := by
    induction fields with
    | nil => simp [fieldsHaveDistinctKeys]
    | cons f r ih => simp [fieldsHaveDistinctKeys, ih]
  rw [hasDistinctKeys, Bool.and_eq_true, decide_eq_true_iff, hfields]

/-! ### From JSON and to JSON -/

theorem itemsOfJson_eq (items : List Json) (acc : List Value) :
    itemsOfJson acc items = acc.reverse ++ items.map ofJson := by
  induction items generalizing acc with
  | nil => simp [itemsOfJson]
  | cons j r ih => simp [itemsOfJson, ih]

theorem fieldsOfJson_eq (fields : List (String × Json)) (acc : List (String × Value)) :
    fieldsOfJson acc fields = acc.reverse ++ fields.map (Prod.map id ofJson) := by
  induction fields generalizing acc with
  | nil => simp [fieldsOfJson]
  | cons f r ih => simp [fieldsOfJson, ih, Prod.map]

theorem ofJson_array (items : List Json) : ofJson (.array items) = .array (items.map ofJson) := by
  rw [ofJson, itemsOfJson_eq, List.reverse_nil, List.nil_append]

theorem ofJson_object (fields : List (String × Json)) :
    ofJson (.object fields) = .object (fields.map (Prod.map id ofJson)) := by
  rw [ofJson, fieldsOfJson_eq, List.reverse_nil, List.nil_append]

theorem map_fst_ofJson (fields : List (String × Json)) :
    (fields.map (Prod.map id ofJson)).map Prod.fst = fields.map Prod.fst := by
  rw [List.map_map]
  rfl

theorem itemsToJson_eq_append (items : List Value) (acc : List Json) :
    itemsToJson acc items = acc.reverse ++ items.map fun v => v.toJson?.getD .null := by
  induction items generalizing acc with
  | nil => simp [itemsToJson]
  | cons v r ih => simp [itemsToJson, ih]

/-- A property as a field of JSON, if its value has a form. -/
def fieldToJson? (f : String × Value) : Option (String × Json) := f.2.toJson?.map (f.1, ·)

theorem fieldsToJson_eq_putAll (fields : List (String × Value)) (acc : List (String × Json)) :
    fieldsToJson acc fields = Keyed.putAll acc (fields.filterMap fieldToJson?) := by
  induction fields generalizing acc with
  | nil => rfl
  | cons f r ih =>
    cases hf : f.2.toJson? with
    | none =>
      rw [List.filterMap_cons_none (by rw [fieldToJson?, hf]; rfl), ← ih]
      simp only [fieldsToJson, hf]
    | some j =>
      rw [List.filterMap_cons_some (b := (f.1, j)) (by rw [fieldToJson?, hf]; rfl)]
      simp only [fieldsToJson, hf]
      exact ih _

theorem toJson?_array (items : List Value) :
    toJson? (.array items) = some (.array (items.map fun v => v.toJson?.getD .null)) := by
  rw [toJson?, itemsToJson_eq_append, List.reverse_nil, List.nil_append]

theorem sublist_map_fst_filterMap (fields : List (String × Value)) :
    ((fields.filterMap fieldToJson?).map Prod.fst).Sublist (fields.map Prod.fst) := by
  induction fields with
  | nil => exact .slnil
  | cons f r ih =>
    cases hf : f.2.toJson? with
    | none =>
      rw [List.filterMap_cons_none (by rw [fieldToJson?, hf]; rfl)]
      exact ih.cons _
    | some j =>
      rw [List.filterMap_cons_some (b := (f.1, j)) (by rw [fieldToJson?, hf]; rfl)]
      exact ih.cons_cons _

/-- An object whose keys are distinct loses only the properties whose values have no form. -/
theorem toJson?_object {fields : List (String × Value)} (h : (fields.map Prod.fst).Nodup) :
    toJson? (.object fields) = some (.object (fields.filterMap fieldToJson?)) := by
  have hkeys : ((fields.filterMap fieldToJson?).map Prod.fst).Nodup :=
    h.sublist (sublist_map_fst_filterMap fields)
  rw [toJson?, fieldsToJson_eq_putAll, Json.putAll_of_nodup hkeys, List.nil_append]

theorem toJson?_eq_none_iff {v : Value} :
    v.toJson? = none ↔ v.kind = "undefined" ∨ v.kind = "function" := by
  cases v <;> simp [toJson?, kind]

end Script.Value

/-! ### JSON that goes through scripts -/

namespace Json

mutual

/-- The value with each number in the form in which scripts write it. -/
def normalized : Json → Json
  | .number n      => Script.Value.numberToJson n.toNumber
  | .array items   => .array (itemsNormalized items)
  | .object fields => .object (fieldsNormalized fields)
  | j              => j

/-- The items with each number in the form in which scripts write it. -/
def itemsNormalized : List Json → List Json
  | []     => []
  | j :: r => normalized j :: itemsNormalized r

/-- The fields with each number in the form in which scripts write it. -/
def fieldsNormalized : List (String × Json) → List (String × Json)
  | []          => []
  | (k, j) :: r => (k, normalized j) :: fieldsNormalized r

end

end Json

namespace Script.Value

mutual

/-- What is made of JSON with distinct keys has distinct keys. -/
theorem hasDistinctKeys_ofJson : ∀ {j : Json}, j.hasDistinctKeys = true →
    (ofJson j).hasDistinctKeys = true
  | .null,         _ => rfl
  | .bool _,       _ => rfl
  | .number _,     _ => rfl
  | .string _,     _ => rfl
  | .array items,  h => by
    rw [ofJson_array, hasDistinctKeys_array_iff]
    exact itemsHaveDistinctKeys_ofJson (Json.hasDistinctKeys_array_iff.mp h)
  | .object fields, h => by
    obtain ⟨hkeys, hvalues⟩ := Json.hasDistinctKeys_object_iff.mp h
    rw [ofJson_object, hasDistinctKeys_object_iff]
    exact ⟨(map_fst_ofJson fields).symm ▸ hkeys, fieldsHaveDistinctKeys_ofJson hvalues⟩

theorem itemsHaveDistinctKeys_ofJson : ∀ {items : List Json},
    (∀ j ∈ items, j.hasDistinctKeys = true) → ∀ v ∈ items.map ofJson, v.hasDistinctKeys = true
  | [],     _ => nofun
  | j :: r, h => by
    obtain ⟨hj, hr⟩ := List.forall_mem_cons.mp h
    exact List.forall_mem_cons.mpr ⟨hasDistinctKeys_ofJson hj, itemsHaveDistinctKeys_ofJson hr⟩

theorem fieldsHaveDistinctKeys_ofJson : ∀ {fields : List (String × Json)},
    (∀ f ∈ fields, f.2.hasDistinctKeys = true) →
    ∀ f ∈ fields.map (Prod.map id ofJson), f.2.hasDistinctKeys = true
  | [],          _ => nofun
  | (_, j) :: r, h => by
    obtain ⟨hj, hr⟩ := List.forall_mem_cons.mp h
    exact List.forall_mem_cons.mpr ⟨hasDistinctKeys_ofJson hj, fieldsHaveDistinctKeys_ofJson hr⟩

end

mutual

/-- JSON with distinct keys comes back with its numbers in their normal form. -/
theorem toJson?_ofJson : ∀ {j : Json}, j.hasDistinctKeys = true →
    (ofJson j).toJson? = some j.normalized
  | .null,         _ => rfl
  | .bool _,       _ => rfl
  | .number _,     _ => rfl
  | .string _,     _ => rfl
  | .array items,  h => by
    rw [ofJson_array, toJson?_array, List.map_map, Json.normalized,
      map_toJson?_ofJson (Json.hasDistinctKeys_array_iff.mp h)]
  | .object fields, h => by
    obtain ⟨hkeys, hvalues⟩ := Json.hasDistinctKeys_object_iff.mp h
    rw [ofJson_object, toJson?_object ((map_fst_ofJson fields).symm ▸ hkeys), Json.normalized,
      filterMap_fieldToJson?_ofJson hvalues]

theorem map_toJson?_ofJson : ∀ {items : List Json}, (∀ j ∈ items, j.hasDistinctKeys = true) →
    items.map ((fun v => v.toJson?.getD .null) ∘ ofJson) = Json.itemsNormalized items
  | [],     _ => rfl
  | j :: r, h => by
    obtain ⟨hj, hr⟩ := List.forall_mem_cons.mp h
    rw [List.map_cons, map_toJson?_ofJson hr, Function.comp_apply, toJson?_ofJson hj,
      Option.getD_some, Json.itemsNormalized]

theorem filterMap_fieldToJson?_ofJson : ∀ {fields : List (String × Json)},
    (∀ f ∈ fields, f.2.hasDistinctKeys = true) →
    (fields.map (Prod.map id ofJson)).filterMap fieldToJson? = Json.fieldsNormalized fields
  | [],          _ => rfl
  | (k, j) :: r, h => by
    obtain ⟨hj, hr⟩ := List.forall_mem_cons.mp h
    have hfield : fieldToJson? (Prod.map id ofJson (k, j)) = some (k, j.normalized) := by
      rw [fieldToJson?, Prod.map_apply, toJson?_ofJson hj]
      rfl
    rw [List.map_cons, List.filterMap_cons_some hfield, filterMap_fieldToJson?_ofJson hr,
      Json.fieldsNormalized]

end

end Script.Value

/-! ### Scripts -/

namespace Script

open Run

/-- Scripts keep keys distinct. -/
theorem hereditary_hasDistinctKeys : Hereditary fun v => v.hasDistinctKeys = true where
  plain {v} hv := by cases v <;> first | rfl | cases hv
  function _ _ _ := rfl
  array_iff := Value.hasDistinctKeys_array_iff
  field h := (Value.hasDistinctKeys_object_iff.mp h).2
  empty := rfl
  put key hfields hv := by
    obtain ⟨hkeys, hvalues⟩ := Value.hasDistinctKeys_object_iff.mp hfields
    exact Value.hasDistinctKeys_object_iff.mpr ⟨Json.nodup_put hkeys key _, fun f hf =>
      (Keyed.mem_put hf).elim (fun heq => heq ▸ hv) (hvalues f)⟩
  erase key hfields := by
    obtain ⟨hkeys, hvalues⟩ := Value.hasDistinctKeys_object_iff.mp hfields
    exact Value.hasDistinctKeys_object_iff.mpr ⟨Json.nodup_erase hkeys key, fun f hf =>
      hvalues f (List.mem_of_mem_filter hf)⟩
  parsed hparse := Value.hasDistinctKeys_ofJson (Json.hasDistinctKeys_of_parse? hparse)

/-- The watch on every expression for distinct keys: in its value and in all variables. -/
def distinctly : Watch := fun _ v s =>
  v.hasDistinctKeys && s.scopes.all fun scope => scope.all fun f => f.2.hasDistinctKeys

theorem distinctly_of_hasDistinctKeys {limit : Nat} (e : Expr) {v : Value} {s : State}
    (hv : v.hasDistinctKeys = true)
    (hs : StateHas (fun v => v.hasDistinctKeys = true) limit s) : distinctly e v s = true := by
  simp only [distinctly, hv, Bool.true_and, List.all_eq_true]
  exact hs.variable_mem

/-- **JSON survives scripts**: a value of JSON that is made a value of scripts and written as JSON
again is what it was, with its numbers in their normal form; if no object in the base value of a
script has a repeated key, then none does in the value of any expression or variable while the
script runs, nor in what it gives; and of an object without a repeated key, only the properties that
are undefined or functions are lost when it is written as JSON. -/
theorem json_survives :
    (∀ j : Json, j.hasDistinctKeys = true → (Value.ofJson j).toJson? = some j.normalized) ∧
    (∀ (source : List Char) (result : Value) (baseUrl? : Option String) (session : Session)
      (limit : Nat), result.hasDistinctKeys = true →
      Cap.free.Keeps distinctly source result baseUrl? session limit ∧
      Cap.free.runWatched distinctly source result baseUrl? session limit =
        runWith put source result baseUrl? session limit ∧
      ∀ v, (runWith put source result baseUrl? session limit).1 = .ok v →
        v.hasDistinctKeys = true) ∧
    ∀ fields : List (String × Value), (Value.object fields).hasDistinctKeys = true →
      (Value.object fields).toJson? = some (.object (fields.filterMap Value.fieldToJson?)) ∧
      ∀ f ∈ fields, Value.fieldToJson? f = none ↔
        f.2.kind = "undefined" ∨ f.2.kind = "function" := by
  refine ⟨fun j hj => Value.toJson?_ofJson hj, ?_, fun fields hfields => ?_⟩
  · intro source result baseUrl? session limit hresult
    have hwatch : ∀ e v s, v.hasDistinctKeys = true →
        StateHas (fun v => v.hasDistinctKeys = true) limit s → distinctly e v s = true :=
      fun e _ _ hv hs => distinctly_of_hasDistinctKeys e hv hs
    obtain ⟨hsame, hstate, hgiven⟩ :=
      runWatched_eq_of_hereditary hereditary_hasDistinctKeys hresult hwatch source baseUrl? session
    refine ⟨?_, hsame, hgiven⟩
    rw [Cap.Keeps, hsame]
    exact hstate.limit_eq
  · refine ⟨Value.toJson?_object (Value.hasDistinctKeys_object_iff.mp hfields).1, fun f _ => ?_⟩
    rw [Value.fieldToJson?, Option.map_eq_none_iff, Value.toJson?_eq_none_iff]

theorem json_survives_nested :
    let j : Json := .object [("b", .number (.fraction (.finite 1))), ("a", .array [.null])]
    (Value.ofJson j).toJson? = some (.object [("b", .number (.integer 1)), ("a", .array [.null])]) ∧
      Cap.free.Keeps distinctly "(\x7ba: 1, a: 2\x7d)".toList .undefined none .empty 100 ∧
      (Value.object [("f", .function 0 [] (.block [])), ("n", .null)]).toJson? =
        some (.object [("n", .null)]) := by
  obtain ⟨hback, hruns, hobjects⟩ := json_survives
  exact ⟨(hback _ rfl).trans rfl, (hruns _ _ _ _ _ rfl).1, (hobjects _ rfl).1⟩

end Script

end Scrape
