import Scrape.Json.Path
import Scrape.Proofs.Text.Blank

/-!
# Json — Search

The search for a key at any depth of a value.  The fields of a value are listed as they stand in its
text, each one before those that its value holds (`pairs`, with `pairs_array` and `pairs_object`);
these are the fields of the objects within the value, and no others (`mem_pairs_iff`).  The search
gives what the first of them with its key holds (`findKey?_eq`), and a path that begins with a search
leads there (`resolve?_search`).

Main statement (`findKey?_finds_first`): the search finds a value if and only if the value stands
under the key in the list and the key does not stand before, and nothing if and only if no object
within the value has the key.
-/

namespace Scrape.JsonPath

open Scrape.Text (breakAt_append trim trimEnd trim_append)

/-! ### The fields of a value -/

mutual

/-- The fields of a value at any depth, each before those that its own value holds. -/
def pairs : Json → List (String × Json)
  | .array items   => pairsOfItems items
  | .object fields => pairsOfFields fields
  | _              => []

/-- The fields of values, one value after the other. -/
def pairsOfItems : List Json → List (String × Json)
  | []      => []
  | v :: vs => pairs v ++ pairsOfItems vs

/-- Fields, and after each of them the fields that its value holds. -/
def pairsOfFields : List (String × Json) → List (String × Json)
  | []           => []
  | (k, v) :: fs => (k, v) :: (pairs v ++ pairsOfFields fs)

end

/-- The first value is the second, or lies within it at some depth. -/
inductive Within : Json → Json → Prop where
  | self {v : Json} : Within v v
  | item {w v : Json} {items : List Json} (hv : v ∈ items) (h : Within w v) :
      Within w (.array items)
  | field {w : Json} {f : String × Json} {fields : List (String × Json)} (hf : f ∈ fields)
      (h : Within w f.2) : Within w (.object fields)

variable {name : String} {v w : Json} {items : List Json} {fields : List (String × Json)}
  {f : String × Json}

theorem pairsOfItems_eq (items : List Json) : pairsOfItems items = items.flatMap pairs := by
  induction items with
  | nil => rw [pairsOfItems, List.flatMap_nil]
  | cons v vs ih => rw [pairsOfItems, ih, List.flatMap_cons]

theorem pairsOfFields_eq (fields : List (String × Json)) :
    pairsOfFields fields = fields.flatMap fun f => f :: pairs f.2 := by
  induction fields with
  | nil => rw [pairsOfFields, List.flatMap_nil]
  | cons f fs ih => rw [pairsOfFields, ih, List.flatMap_cons, List.cons_append]

/-- The fields of an array are those of its items, one item after the other. -/
theorem pairs_array (items : List Json) : pairs (.array items) = items.flatMap pairs := by
  rw [pairs, pairsOfItems_eq]

/-- The fields of an object are its own, each before those that its value holds and before those
after it. -/
theorem pairs_object (fields : List (String × Json)) :
    pairs (.object fields) = fields.flatMap fun f => f :: pairs f.2 := by
  rw [pairs, pairsOfFields_eq]

/-! ### Objects within a value -/

theorem mem_pairs_of_within (h : Within (.object fields) v) (hf : f ∈ fields) : f ∈ pairs v := by
  generalize hw : Json.object fields = w at h
  induction h with
  | self =>
    rw [← hw, pairs_object, List.mem_flatMap]
    exact ⟨f, hf, List.mem_cons_self⟩
  | @item v items hv _ ih =>
    rw [pairs_array, List.mem_flatMap]
    exact ⟨v, hv, ih⟩
  | @field g fs hg _ ih =>
    rw [pairs_object, List.mem_flatMap]
    exact ⟨g, hg, List.mem_cons_of_mem g ih⟩

theorem exists_within_of_mem_pairs : ∀ {v : Json}, f ∈ pairs v →
    ∃ fields, Within (.object fields) v ∧ f ∈ fields
  | .array items, h => by
    rw [pairs_array, List.mem_flatMap] at h
    obtain ⟨v, hv, h⟩ := h
    obtain ⟨fields, hwithin, hf⟩ := exists_within_of_mem_pairs h
    exact ⟨fields, .item hv hwithin, hf⟩
  | .object fields, h => by
    rw [pairs_object, List.mem_flatMap] at h
    obtain ⟨⟨k, v⟩, hg, h⟩ := h
    rcases List.mem_cons.mp h with rfl | h
    · exact ⟨fields, .self, hg⟩
    · obtain ⟨inner, hwithin, hf⟩ := exists_within_of_mem_pairs h
      exact ⟨inner, .field hg hwithin, hf⟩
  | .null, h | .bool _, h | .number _, h | .string _, h => by cases h
termination_by v => sizeOf v
decreasing_by
  · have := List.sizeOf_lt_of_mem hv
    simp
    omega
  · have := List.sizeOf_lt_of_mem hg
    simp at this ⊢
    omega

/-- **The fields that are listed** are those of the objects within the value. -/
theorem mem_pairs_iff : f ∈ pairs v ↔ ∃ fields, Within (.object fields) v ∧ f ∈ fields :=
  ⟨exists_within_of_mem_pairs, fun ⟨_, hwithin, hf⟩ => mem_pairs_of_within hwithin hf⟩

/-! ### The search -/

mutual

/-- **The search** gives the value of the first field with the key. -/
theorem findKey?_eq (name : String) : ∀ v : Json,
    findKey? name v = ((pairs v).find? fun f => f.1 = name).map Prod.snd
  | .array items => by rw [findKey?, pairs, findInItems?_eq]
  | .object fields => by rw [findKey?, pairs, findInFields?_eq]
  | .null | .bool _ | .number _ | .string _ => rfl

theorem findInItems?_eq (name : String) : ∀ items : List Json,
    findInItems? name items = ((pairsOfItems items).find? fun f => f.1 = name).map Prod.snd
  | [] => by
    rw [findInItems?, pairsOfItems]
    rfl
  | v :: vs => by
    rw [findInItems?, findKey?_eq name v, findInItems?_eq name vs, pairsOfItems, List.find?_append]
    cases (pairs v).find? fun f => f.1 = name <;> rfl

theorem findInFields?_eq (name : String) : ∀ fields : List (String × Json),
    findInFields? name fields = ((pairsOfFields fields).find? fun f => f.1 = name).map Prod.snd
  | [] => by
    rw [findInFields?, pairsOfFields]
    rfl
  | (k, v) :: fs => by
    rw [findInFields?, pairsOfFields]
    split
    · next hk =>
      rw [List.find?_cons_of_pos (by simpa using hk)]
      rfl
    · next hk =>
      rw [findKey?_eq name v, findInFields?_eq name fs, List.find?_cons_of_neg (by simpa using hk),
        List.find?_append]
      cases (pairs v).find? fun f => f.1 = name <;> rfl

end

/-- **The search finds the first.**  It gives a value if and only if the value stands under the key in
the list of all fields at any depth, and none of the fields before has this key; and it gives nothing
if and only if no object at any depth has it. -/
theorem findKey?_finds_first (name : String) (v : Json) :
    (∀ w, findKey? name v = some w ↔ ∃ before after,
      pairs v = before ++ (name, w) :: after ∧ ∀ f ∈ before, f.1 ≠ name) ∧
    (findKey? name v = none ↔ ∀ fields, Within (.object fields) v → ∀ f ∈ fields, f.1 ≠ name) := by
  constructor
  · intro w
    rw [findKey?_eq, Option.map_eq_some_iff]
    constructor
    · rintro ⟨⟨k, w⟩, hfind, rfl⟩
      obtain ⟨hk, before, after, hpairs, hbefore⟩ := List.find?_eq_some_iff_append.mp hfind
      obtain rfl : k = name := by simpa using hk
      exact ⟨before, after, hpairs, by simpa using hbefore⟩
    · rintro ⟨before, after, hpairs, hbefore⟩
      refine ⟨(name, w), List.find?_eq_some_iff_append.mpr ⟨by simp, before, after, hpairs, ?_⟩, rfl⟩
      simpa using hbefore
  · rw [findKey?_eq, Option.map_eq_none_iff, List.find?_eq_none]
    constructor
    · intro h fields hwithin f hf
      simpa using h f (mem_pairs_of_within hwithin hf)
    · intro h f hf
      obtain ⟨fields, hwithin, hf⟩ := mem_pairs_iff.mp hf
      simpa using h fields hwithin f hf

example : findKey? "id" (.object [("a", .object [("id", .bool true)]), ("id", .null)]) =
    some (.bool true) := by rfl

/-- A path that begins with a search leads to what the search finds. -/
theorem resolve?_search {name : List Char} (hname : ∀ c ∈ name, startsStep c = false)
    (htrim : trimEnd name = name) (root : Json) :
    resolve? root ("$..".toList ++ name) = findKey? (String.ofList name) root := by
  have hpath : trim ("$..".toList ++ name) = '$' :: '.' :: '.' :: name := by
    rw [trim_append (by decide) (by decide), htrim]
    rfl
  have hbreak := breakAt_append (t := []) hname (by simp)
  rw [List.append_nil] at hbreak
  unfold resolve?
  rw [hpath]
  dsimp only
  rw [if_neg (by simp)]
  simp only [withoutRoot, hbreak]
  cases findKey? (String.ofList name) root <;> rfl

end Scrape.JsonPath
