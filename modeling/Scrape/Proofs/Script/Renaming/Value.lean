import Scrape.Proofs.Script.Likeness
import Scrape.Proofs.Script.Renaming.Code

/-!
# Script — Renaming — Value

Values that are the same up to the names of variables in the code of their functions.  A function
shows nothing of its code but when it is called, so all that is read off a value is kept: its text,
number, kind and JSON, and what it equals (`Value.Renamed.output_eq` and its siblings).  The values
that are found in it are renamed in turn.
-/

namespace Scrape.Script

variable (r : Renaming)

mutual

/-- The second value is the first one, with the code of its functions renamed. -/
inductive Value.Renamed : Value → Value → Prop
  | undefined : Value.Renamed .undefined .undefined
  | null : Value.Renamed .null .null
  | bool (b : Bool) : Value.Renamed (.bool b) (.bool b)
  | number (x : Number) : Value.Renamed (.number x) (.number x)
  | string (s : String) : Value.Renamed (.string s) (.string s)
  | array {items items' : List Value} :
      List.Forall₂ Value.Renamed items items' → Value.Renamed (.array items) (.array items')
  | object {fields fields' : List (String × Value)} :
      List.Forall₂ Value.PropertyRenamed fields fields' →
      Value.Renamed (.object fields) (.object fields')
  | regex (source flags : String) : Value.Renamed (.regex source flags) (.regex source flags)
  | function (id : Nat) {params params' : List Binding} {body body' : Body} :
      List.Forall₂ (Binding.Renamed r) params params' → Body.Renamed r body body' →
      Value.Renamed (.function id params body) (.function id params' body')

/-- The second property has the key of the first one, and its value renamed. -/
inductive Value.PropertyRenamed : String × Value → String × Value → Prop
  | mk (key : String) {v v' : Value} : Value.Renamed v v' →
      Value.PropertyRenamed (key, v) (key, v')

end

/-- The second values are the first ones renamed. -/
abbrev ItemsRenamed (items items' : List Value) : Prop :=
  List.Forall₂ (Value.Renamed r) items items'

/-- The second properties are the first ones renamed. -/
abbrev PropertiesRenamed (fields fields' : List (String × Value)) : Prop :=
  List.Forall₂ (Value.PropertyRenamed r) fields fields'

/-- The second value, if any, is the first one renamed. -/
abbrev ValueRenamed? (v? v'? : Option Value) : Prop := Option.Rel (Value.Renamed r) v? v'?

variable {r}

/-! ### Lists -/

section Lists

variable {α β : Type} {R : α → β → Prop}

theorem forall₂_getElem? {l : List α} {l' : List β} (h : List.Forall₂ R l l') (i : Nat) :
    Option.Rel R l[i]? l'[i]? := by
  induction h generalizing i with
  | nil => exact .none
  | cons hab _ ih =>
    cases i with
    | zero => exact .some hab
    | succ i => exact ih i

theorem forall₂_head? {l : List α} {l' : List β} (h : List.Forall₂ R l l') :
    Option.Rel R l.head? l'.head? := by
  cases h with
  | nil => exact .none
  | cons hab _ => exact .some hab

theorem forall₂_getLast? {l : List α} {l' : List β} (h : List.Forall₂ R l l') :
    Option.Rel R l.getLast? l'.getLast? := by
  rw [List.getLast?_eq_getElem?, List.getLast?_eq_getElem?, h.length_eq]
  exact forall₂_getElem? h _

theorem forall₂_tail {l : List α} {l' : List β} (h : List.Forall₂ R l l') :
    List.Forall₂ R l.tail l'.tail := by
  cases h with
  | nil => exact .nil
  | cons _ hr => exact hr

theorem forall₂_dropLast {l : List α} {l' : List β} (h : List.Forall₂ R l l') :
    List.Forall₂ R l.dropLast l'.dropLast := by
  rw [List.dropLast_eq_take, List.dropLast_eq_take, h.length_eq]
  exact List.forall₂_take _ h

theorem forall₂_set {l : List α} {l' : List β} (h : List.Forall₂ R l l') (i : Nat) {a : α} {b : β}
    (hab : R a b) : List.Forall₂ R (l.set i a) (l'.set i b) := by
  induction h generalizing i with
  | nil => exact .nil
  | cons hcd hr ih =>
    cases i with
    | zero => exact .cons hab hr
    | succ i => exact .cons hcd (ih i)

theorem forall₂_replicate (n : Nat) {a : α} {b : β} (hab : R a b) :
    List.Forall₂ R (List.replicate n a) (List.replicate n b) := by
  induction n with
  | zero => exact .nil
  | succ n ih => exact .cons hab ih

/-- What is read off related things alike is read off related lists alike. -/
theorem forall₂_map_eq {γ : Type} {f : α → γ} {g : β → γ} {l : List α} {l' : List β}
    (h : List.Forall₂ R l l') (heq : ∀ a b, R a b → f a = g b) : l.map f = l'.map g := by
  induction h with
  | nil => rfl
  | cons hab _ ih => rw [List.map_cons, List.map_cons, heq _ _ hab, ih]

theorem forall₂_all_eq {p : α → Bool} {q : β → Bool} {l : List α} {l' : List β}
    (h : List.Forall₂ R l l') (heq : ∀ a b, R a b → p a = q b) : l.all p = l'.all q := by
  rw [← Function.id_comp p, ← List.all_map, forall₂_map_eq h heq, List.all_map, Function.id_comp]

theorem forall₂_any_eq {p : α → Bool} {q : β → Bool} {l : List α} {l' : List β}
    (h : List.Forall₂ R l l') (heq : ∀ a b, R a b → p a = q b) : l.any p = l'.any q := by
  rw [← Function.id_comp p, ← List.any_map, forall₂_map_eq h heq, List.any_map, Function.id_comp]

theorem forall₂_findIdx?_eq {p : α → Bool} {q : β → Bool} {l : List α} {l' : List β}
    (h : List.Forall₂ R l l') (heq : ∀ a b, R a b → p a = q b) :
    l.findIdx? p = l'.findIdx? q := by
  rw [← Function.id_comp p, ← List.findIdx?_map, forall₂_map_eq h heq, List.findIdx?_map,
    Function.id_comp]

end Lists

namespace Value.Renamed

variable {v v' w w' : Value}

/-! ### What is read off a value -/

theorem isTrue_eq (h : v.Renamed r v') : v.isTrue = v'.isTrue := by cases h <;> rfl

theorem isNullish_eq (h : v.Renamed r v') : v.isNullish = v'.isNullish := by cases h <;> rfl

theorem isUndefined_eq (h : v.Renamed r v') : v.isUndefined = v'.isUndefined := by cases h <;> rfl

theorem kind_eq (h : v.Renamed r v') : v.kind = v'.kind := by cases h <;> rfl

theorem isPlain_eq (h : v.Renamed r v') : v.isPlain = v'.isPlain := by cases h <;> rfl

theorem addsAsText_eq (h : v.Renamed r v') : v.addsAsText = v'.addsAsText := by cases h <;> rfl

mutual

theorem text_eq : ∀ {v v' : Value}, v.Renamed r v' → v.text = v'.text
  | _, _, .array h      => by rw [text, text, itemTexts_eq [] h]
  | _, _, .object _     => rfl
  | _, _, .undefined    => rfl
  | _, _, .null         => rfl
  | _, _, .bool _       => rfl
  | _, _, .number _     => rfl
  | _, _, .string _     => rfl
  | _, _, .regex ..     => rfl
  | _, _, .function ..  => rfl

theorem itemTexts_eq (acc : List String) : ∀ {items items' : List Value},
    ItemsRenamed r items items' → itemTexts acc items = itemTexts acc items'
  | _, _, .nil        => rfl
  | _, _, .cons hv hr => by
    rw [itemTexts, itemTexts, text_eq hv, hv.isNullish_eq]
    exact itemTexts_eq _ hr

end

theorem toNumber_eq (h : v.Renamed r v') : v.toNumber = v'.toNumber := by
  cases h with
  | array hitems =>
    -- only a list of one item has the number of its text
    cases hitems with
    | nil => rfl
    | cons hv hr =>
      cases hr with
      | nil =>
        rw [toNumber, toNumber, text_eq (.array (.cons hv .nil))]
      | cons => rfl
  | _ => rfl

mutual

theorem toJson?_eq : ∀ {v v' : Value}, v.Renamed r v' → v.toJson? = v'.toJson?
  | _, _, .array h      => by rw [toJson?, toJson?, itemsToJson_eq [] h]
  | _, _, .object h     => by rw [toJson?, toJson?, fieldsToJson_eq [] h]
  | _, _, .undefined    => rfl
  | _, _, .null         => rfl
  | _, _, .bool _       => rfl
  | _, _, .number _     => rfl
  | _, _, .string _     => rfl
  | _, _, .regex ..     => rfl
  | _, _, .function ..  => rfl

theorem itemsToJson_eq (acc : List Json) : ∀ {items items' : List Value},
    ItemsRenamed r items items' → itemsToJson acc items = itemsToJson acc items'
  | _, _, .nil        => rfl
  | _, _, .cons hv hr => by
    rw [itemsToJson, itemsToJson, toJson?_eq hv]
    exact itemsToJson_eq _ hr

theorem fieldsToJson_eq (acc : List (String × Json)) : ∀ {fields fields' : List (String × Value)},
    PropertiesRenamed r fields fields' → fieldsToJson acc fields = fieldsToJson acc fields'
  | _, _, .nil              => rfl
  | _, _, .cons (.mk _ hv) hr => by
    rw [fieldsToJson, fieldsToJson, toJson?_eq hv]
    split
    · exact fieldsToJson_eq _ hr
    · exact fieldsToJson_eq _ hr

end

/-- **Renamed values are handed out alike** by a rule. -/
theorem output_eq (h : v.Renamed r v') : v.output = v'.output := by
  cases h with
  | array hitems =>
    have hplain := forall₂_all_eq hitems fun _ _ => isPlain_eq
    have htexts : ∀ {items items' : List Value}, ItemsRenamed r items items' →
        (items.filter (!isNullish ·)).map text = (items'.filter (!isNullish ·)).map text := by
      intro items items' h
      refine forall₂_map_eq (R := Value.Renamed r) (List.rel_filter ?_ h) fun _ _ => text_eq
      intro a b hab
      simp only [hab.isNullish_eq]
    rw [output, output, hplain, htexts hitems, jsonText, jsonText, toJson?_eq (.array hitems)]
  | object hfields => rw [output, output, jsonText, jsonText, toJson?_eq (.object hfields)]
  | _ => rfl

/-! ### What a value equals -/

theorem same_eq (h : v.Renamed r v') (hw : w.Renamed r w') : v.same w = v'.same w' := by
  cases h <;> cases hw <;> rfl

theorem equals_eq (h : v.Renamed r v') (hw : w.Renamed r w') : v.equals w = v'.equals w' := by
  have hv := h.text_eq
  have hwtext := hw.text_eq
  have hn := h.toNumber_eq
  have hwn := hw.toNumber_eq
  cases h <;> cases hw <;> simp only [equals, isNullish, hv, hwtext, hn, hwn] <;> rfl

theorem compare?_eq (h : v.Renamed r v') (hw : w.Renamed r w') : v.compare? w = v'.compare? w' := by
  have hn := h.toNumber_eq
  have hwn := hw.toNumber_eq
  cases h <;> cases hw <;> simp only [compare?, hn, hwn]

end Value.Renamed

/-! ### Properties -/

section Properties

variable {fields fields' : List (String × Value)} (h : PropertiesRenamed r fields fields')

include h

theorem renamed_get? (key : String) :
    ValueRenamed? r (Keyed.get? key fields) (Keyed.get? key fields') := by
  induction h with
  | nil => exact .none
  | cons hf _ ih =>
    obtain ⟨k, hv⟩ := hf
    unfold Keyed.get?
    split
    · exact .some hv
    · exact ih

theorem has_eq (key : String) : Keyed.has key fields = Keyed.has key fields' := by
  rw [Keyed.has, Keyed.has, rel_isSome (renamed_get? h key)]

theorem renamed_put (key : String) {v v' : Value} (hv : v.Renamed r v') :
    PropertiesRenamed r (Keyed.put key v fields) (Keyed.put key v' fields') := by
  induction h with
  | nil => exact .cons (.mk key hv) .nil
  | cons hf hr ih =>
    obtain ⟨k, hw⟩ := hf
    unfold Keyed.put
    split
    · exact .cons (.mk k hv) hr
    · exact .cons (.mk k hw) ih

theorem renamed_putAll {more more' : List (String × Value)}
    (hmore : PropertiesRenamed r more more') :
    PropertiesRenamed r (Keyed.putAll fields more) (Keyed.putAll fields' more') := by
  induction hmore generalizing fields fields' with
  | nil => exact h
  | cons hf _ ih =>
    obtain ⟨k, hv⟩ := hf
    exact ih (renamed_put h k hv)

theorem renamed_erase (key : String) :
    PropertiesRenamed r (Keyed.erase key fields) (Keyed.erase key fields') :=
  List.rel_filter (fun _ _ hf => by cases hf; rfl) h

omit h in
/-- The places of a list as the keys of its items. -/
theorem renamed_mapIdx {items items' : List Value} (hitems : ItemsRenamed r items items')
    (key : Nat → String) : PropertiesRenamed r (items.mapIdx fun i v => (key i, v))
      (items'.mapIdx fun i v => (key i, v)) := by
  induction hitems generalizing key with
  | nil => exact .nil
  | cons hv _ ih =>
    rw [List.mapIdx_cons, List.mapIdx_cons]
    exact .cons (.mk _ hv) (ih _)

end Properties

namespace Value.Renamed

variable {v v' w w' : Value}

theorem get (h : v.Renamed r v') (key : String) : (v.get key).Renamed r (v'.get key) := by
  cases h with
  | string s =>
    simp only [Value.get]
    split
    · exact .number _
    · cases (Text.readCount? key.toList).bind fun i => s.toList[i]? with
      | none => exact .undefined
      | some c => exact .string _
  | array hitems =>
    simp only [Value.get]
    split
    · rw [hitems.length_eq]
      exact .number _
    · cases Text.readCount? key.toList with
      | none => exact .undefined
      | some i => exact rel_getD (forall₂_getElem? hitems i) .undefined
  | object hfields => exact rel_getD (renamed_get? hfields key) .undefined
  | regex source flags =>
    simp only [Value.get]
    split
    · exact .string _
    · split
      · exact .string _
      · split
        · exact .bool _
        · exact .undefined
  | _ => exact .undefined

theorem resized (n : Nat) {items items' : List Value} (hitems : ItemsRenamed r items items') :
    ItemsRenamed r (resized n items) (resized n items') := by
  rw [Value.resized, Value.resized, hitems.length_eq]
  exact List.rel_append (List.forall₂_take n hitems) (forall₂_replicate _ .undefined)

theorem setItem {items items' : List Value} (hitems : ItemsRenamed r items items') (i : Nat)
    (h : v.Renamed r v') : ItemsRenamed r (setItem i v items) (setItem i v' items') := by
  unfold Value.setItem
  rw [hitems.length_eq]
  split
  · exact forall₂_set hitems i h
  · exact List.rel_append (resized i hitems) (.cons h .nil)

theorem set? (h : v.Renamed r v') (key : String) (hw : w.Renamed r w') :
    ValueRenamed? r (v.set? key w) (v'.set? key w') := by
  cases h with
  | array hitems =>
    simp only [Value.set?, hitems.length_eq, hw.toNumber_eq]
    split
    · split
      · exact .none
      · exact .some (.array (setItem hitems _ hw))
    · split
      · split
        · split
          · exact .some (.array (resized _ hitems))
          · exact .none
        · exact .none
      · exact .none
  | object hfields => exact .some (.object (renamed_put hfields key hw))
  | _ => exact .none

theorem items? (h : v.Renamed r v') :
    Option.Rel (ItemsRenamed r) v.items? v'.items? := by
  cases h with
  | array hitems => exact .some hitems
  | string s =>
    refine .some (List.forall₂_same.mpr fun v hv => ?_)
    obtain ⟨c, -, rfl⟩ := List.mem_map.mp hv
    exact .string _
  | _ => exact .none

end Value.Renamed

end Scrape.Script
