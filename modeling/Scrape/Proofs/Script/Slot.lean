import Mathlib.Logic.Basic
import Scrape.Script.Failure
import Scrape.Script.Value

/-!
# Script — Slot

The slots of values, and paths of keys through them.  A key names a slot of an array or of an
object: in an array its index, so that two keys which are read as the same index name one slot, and
in an object its name.  Setting a slot gives that slot its new value and leaves all others as they
are (`get_of_set?`); the length of an array is no slot, since setting one can change it.

A path of keys leads from a value to one that it holds, at some depth (`read`), and what stands
there can be written (`write?`), which sets one slot on each level of the path.  What has been
written is read (`read_of_write?`), and a path that leaves the one written to, at some level and for
another slot, leads to what it has led to before (`read_of_leaves`).
-/

namespace Scrape.Script.Value

/-! ### Slots -/

/-- Two keys name the same slot of the value. -/
def SameSlot (container : Value) (key other : String) : Prop :=
  key = other ∨ ∃ items i, container = .array items ∧
    Text.readCount? key.toList = some i ∧ Text.readCount? other.toList = some i

/-- The key names the length of the value, which is an array. -/
def NamesLength (container : Value) (key : String) : Prop :=
  key = "length" ∧ ∃ items, container = .array items

variable {container changed v : Value} {key other : String} {items : List Value} {i : Nat}

theorem ne_length_of_readCount? (h : Text.readCount? key.toList = some i) : key ≠ "length" := by
  rintro rfl
  cases h.symm.trans (show Text.readCount? "length".toList = none by decide)

theorem get_index (h : Text.readCount? key.toList = some i) :
    (Value.array items).get key = items[i]?.getD .undefined := by
  simp only [get, if_neg (ne_length_of_readCount? h), h, Option.bind_some]

theorem get_of_readCount?_none (hkey : key ≠ "length") (h : Text.readCount? key.toList = none) :
    (Value.array items).get key = .undefined := by
  simp only [get, if_neg hkey, h, Option.bind_none, Option.getD_none]

theorem get_object (fields : List (String × Value)) (key : String) :
    (Value.object fields).get key = (Keyed.get? key fields).getD .undefined :=
  rfl

theorem get_of_sameSlot (h : container.SameSlot key other) :
    container.get other = container.get key := by
  obtain rfl | ⟨items, i, rfl, hkey, hother⟩ := h
  · rfl
  · rw [get_index hkey, get_index hother]

/-- Items that are added to reach a length count as the missing ones do. -/
theorem getD_resized (hlength : items.length ≤ i) (j : Nat) :
    (resized i items)[j]?.getD .undefined = items[j]?.getD .undefined := by
  rw [resized, List.take_of_length_le hlength, List.getElem?_append]
  split
  · rfl
  · rename_i hj
    rw [List.getElem?_eq_none (Nat.le_of_not_lt hj), List.getElem?_replicate]
    split <;> rfl

/-- The items with one set, beyond which those that are missing count as undefined. -/
theorem getD_setItem (i : Nat) (v : Value) (items : List Value) (j : Nat) :
    (setItem i v items)[j]?.getD .undefined =
      if i = j then v else items[j]?.getD .undefined := by
  unfold setItem
  split
  · rename_i hi
    rw [List.getElem?_set]
    split <;> rfl
  · rename_i hi
    have hlength : items.length ≤ i := Nat.le_of_not_lt hi
    have hresized : (resized i items).length = i := by
      rw [resized, List.take_of_length_le hlength, List.length_append, List.length_replicate,
        Nat.add_sub_cancel' hlength]
    rw [List.getElem?_append, hresized]
    rcases Nat.lt_trichotomy j i with hj | rfl | hj
    · rw [if_pos hj, if_neg (Nat.ne_of_gt hj), getD_resized hlength]
    · rw [if_neg (Nat.lt_irrefl j), if_pos rfl, Nat.sub_self]
      rfl
    · -- past the item that is set there is none, before and after
      have hafter : [v][j - i]? = none := List.getElem?_eq_none (Nat.sub_pos_of_lt hj)
      rw [if_neg (Nat.lt_asymm hj), if_neg (Nat.ne_of_lt hj), hafter,
        List.getElem?_eq_none (Nat.le_of_lt (Nat.lt_of_le_of_lt hlength hj))]

/-- What setting a slot does: an item of an array is set, or a property of an object. -/
theorem set?_cases (h : container.set? key v = some changed)
    (hkey : ¬ container.NamesLength key) :
    (∃ items i, container = .array items ∧ Text.readCount? key.toList = some i ∧
      changed = .array (setItem i v items)) ∨
    ∃ fields, container = .object fields ∧ changed = .object (Keyed.put key v fields) := by
  cases container with
  | array items =>
    have hne : key ≠ "length" := fun heq => hkey ⟨heq, items, rfl⟩
    cases hread : Text.readCount? key.toList with
    | some i =>
      simp only [set?, hread] at h
      split at h
      · cases h
      · exact .inl ⟨items, i, rfl, rfl, (Option.some.inj h).symm⟩
    | none =>
      simp only [set?, hread, if_neg hne] at h
      cases h
  | object fields => exact .inr ⟨fields, rfl, (Option.some.inj h).symm⟩
  | _ => cases h

/-- A slot that is set has its value, and all others keep theirs. -/
theorem get_of_set? (h : container.set? key v = some changed) (hkey : ¬ container.NamesLength key)
    (hother : ¬ container.NamesLength other) :
    (container.SameSlot key other → changed.get other = v) ∧
    (¬ container.SameSlot key other → changed.get other = container.get other) := by
  obtain ⟨items, i, rfl, hread, rfl⟩ | ⟨fields, rfl, rfl⟩ := set?_cases h hkey
  · have hne : other ≠ "length" := fun heq => hother ⟨heq, items, rfl⟩
    cases hj : Text.readCount? other.toList with
    | none =>
      have hapart : ¬ (Value.array items).SameSlot key other := by
        rintro (rfl | ⟨_, _, _, _, hj'⟩)
        · rw [hread] at hj
          cases hj
        · rw [hj] at hj'
          cases hj'
      refine ⟨fun hsame => absurd hsame hapart, fun _ => ?_⟩
      rw [get_of_readCount?_none hne hj, get_of_readCount?_none hne hj]
    | some j =>
      rw [get_index hj, get_index hj, getD_setItem]
      have hsame : (Value.array items).SameSlot key other ↔ i = j := by
        constructor
        · rintro (rfl | ⟨_, k, _, hi, hk⟩)
          · exact Option.some.inj (hread.symm.trans hj)
          · exact (Option.some.inj (hread.symm.trans hi)).trans
              (Option.some.inj (hj.symm.trans hk)).symm
        · rintro rfl
          exact .inr ⟨items, i, rfl, hread, hj⟩
      rw [hsame]
      exact ⟨fun heq => if_pos heq, fun hne => if_neg hne⟩
  · have hsame : (Value.object fields).SameSlot key other ↔ key = other := by
      refine ⟨fun hs => ?_, Or.inl⟩
      obtain rfl | ⟨_, _, heq, _⟩ := hs
      · rfl
      · cases heq
    rw [hsame, get_object, get_object, Keyed.get?_put]
    exact ⟨fun heq => by rw [if_pos heq, Option.getD_some], fun hne => by rw [if_neg hne]⟩

/-! ### Paths -/

/-- What stands at a path of keys, unless it goes through null or undefined. -/
def read : List String → Value → Except Fault Value
  | [],          v => .ok v
  | key :: keys, v =>
    if v.isNullish then .error (.unreadable key v.text) else read keys (v.get key)

/-- The value with another one written at a path of keys, if what is on the way can hold it. -/
def write? : List String → Value → Value → Option Value
  | [],          _,         v => some v
  | key :: keys, container, v =>
    (write? keys (container.get key) v).bind fun part => container.set? key part

/-- The path leaves another one, which begins at the value: up to some level both go through the
same slots, and there it goes on at another slot, which is not the length of an array. -/
inductive Leaves : Value → List String → List String → Prop
  | here {container : Value} {key other : String} (keys others : List String) :
      ¬ container.SameSlot key other → ¬ container.NamesLength other →
      Leaves container (key :: keys) (other :: others)
  | there {container : Value} {key other : String} {keys others : List String} :
      container.SameSlot key other → Leaves (container.get key) keys others →
      Leaves container (key :: keys) (other :: others)

variable {keys others : List String}

theorem not_isNullish_of_set? (h : container.set? key v = some changed) :
    container.isNullish = false ∧ changed.isNullish = false := by
  cases container with
  | array items =>
    refine ⟨rfl, ?_⟩
    simp only [set?] at h
    -- an item or the length is set, and the array stays one
    repeat' split at h
    all_goals cases h
    all_goals rfl
  | object fields =>
    cases h
    exact ⟨rfl, rfl⟩
  | _ => cases h

/-- A path that is written to goes through no length of an array, except as its last key. -/
theorem not_namesLength_of_write? (hlast : (key :: keys).getLast? ≠ some "length")
    (h : (container.get key).write? keys v = some changed) : ¬ container.NamesLength key := by
  rintro ⟨rfl, items, rfl⟩
  cases keys with
  | nil => exact hlast rfl
  | cons next keys =>
    -- the length is a number, which holds nothing
    obtain ⟨part, -, hset⟩ := Option.bind_eq_some_iff.mp h
    simp [get, ofNat, set?] at hset

theorem getLast?_ne_of_cons (h : (key :: keys).getLast? ≠ some "length") :
    keys.getLast? ≠ some "length" := by
  cases keys with
  | nil => exact (Option.some_ne_none _).symm
  | cons next keys => rwa [List.getLast?_cons_cons] at h

/-- What has been written at a path stands there. -/
theorem read_of_write? (hlast : keys.getLast? ≠ some "length")
    (h : container.write? keys v = some changed) : changed.read keys = .ok v := by
  induction keys generalizing container changed with
  | nil => exact congrArg Except.ok (Option.some.inj h).symm
  | cons key keys ih =>
    obtain ⟨part, hpart, hset⟩ := Option.bind_eq_some_iff.mp h
    have hkey := not_namesLength_of_write? hlast hpart
    have hrest := getLast?_ne_of_cons hlast
    rw [read, (not_isNullish_of_set? hset).2, if_neg Bool.false_ne_true,
      (get_of_set? hset hkey hkey).1 (.inl rfl)]
    exact ih hrest hpart

/-- A path that leaves the one written to leads to what it has led to. -/
theorem read_of_leaves (hlast : keys.getLast? ≠ some "length")
    (h : container.write? keys v = some changed) (hleaves : Leaves container keys others) :
    changed.read others = container.read others := by
  induction hleaves generalizing changed with
  | here keys others hslot hlength =>
    obtain ⟨part, hpart, hset⟩ := Option.bind_eq_some_iff.mp h
    obtain ⟨hbefore, hafter⟩ := not_isNullish_of_set? hset
    have hkey := not_namesLength_of_write? hlast hpart
    rw [read, read, hbefore, hafter, if_neg Bool.false_ne_true, if_neg Bool.false_ne_true,
      (get_of_set? hset hkey hlength).2 hslot]
  | @there container key other keys others hslot _ ih =>
    obtain ⟨part, hpart, hset⟩ := Option.bind_eq_some_iff.mp h
    obtain ⟨hbefore, hafter⟩ := not_isNullish_of_set? hset
    have hkey := not_namesLength_of_write? hlast hpart
    have hother : ¬ container.NamesLength other := by
      rintro ⟨rfl, items, rfl⟩
      obtain rfl | ⟨_, _, _, _, hread⟩ := hslot
      · exact hkey ⟨rfl, items, rfl⟩
      · exact ne_length_of_readCount? hread rfl
    have hrest := getLast?_ne_of_cons hlast
    rw [read, read, hbefore, hafter, if_neg Bool.false_ne_true, if_neg Bool.false_ne_true,
      (get_of_set? hset hkey hother).1 hslot, get_of_sameSlot hslot]
    exact ih hrest hpart

/-! ### Paths with one more key -/

theorem read_concat (keys : List String) (key : String) (container : Value) :
    read (keys ++ [key]) container = read keys container >>= read [key] := by
  induction keys generalizing container with
  | nil => rfl
  | cons next keys ih =>
    rw [List.cons_append, read, read]
    split
    · rfl
    · exact ih _

theorem write?_concat_of_read {part : Value} (h : container.read keys = .ok part) (key : String)
    (v : Value) : container.write? (keys ++ [key]) v =
      (part.set? key v).bind fun changed => container.write? keys changed := by
  induction keys generalizing container with
  | nil =>
    cases h
    exact (Option.bind_fun_some _).symm
  | cons next keys ih =>
    rw [read] at h
    split at h
    · cases h
    · rw [List.cons_append, write?, ih h, Option.bind_assoc]
      rfl

theorem write?_concat_of_not_read {f : Fault} (h : container.read keys = .error f) (key : String)
    (v : Value) : container.write? (keys ++ [key]) v = none := by
  induction keys generalizing container with
  | nil => cases h
  | cons next keys ih =>
    rw [List.cons_append, write?, Option.bind_eq_none_iff]
    intro part hpart
    rw [read] at h
    split at h
    · rename_i hnullish
      cases hset : container.set? next part with
      | none => rfl
      | some changed => exact absurd hnullish (by simp [not_isNullish_of_set? hset])
    · rw [ih h] at hpart
      cases hpart

end Scrape.Script.Value
