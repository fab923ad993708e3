import Scrape.Proofs.Script.Method

/-!
# Script — Hereditary — Values

Properties of values that are hereditary in scripts (`Hereditary`): values that hold no others have
them, a list has them if its items do, an object keeps them when its properties are put or erased,
and what is read from JSON has them.  Then all that the operators, the methods and the functions of
scripts make of values with such a property has it.
-/

namespace Scrape.Script

/-- A property of values that goes from values to what scripts make of them. -/
structure Hereditary (has : Value → Prop) : Prop where
  plain {v : Value} : v.isPlain = true → has v
  function (id : Nat) (params : List Binding) (body : Body) : has (.function id params body)
  array_iff {items : List Value} : has (.array items) ↔ ∀ v ∈ items, has v
  field {fields : List (String × Value)} : has (.object fields) → ∀ f ∈ fields, has f.2
  empty : has (.object [])
  put {fields : List (String × Value)} {v : Value} (key : String) : has (.object fields) → has v →
    has (.object (Keyed.put key v fields))
  erase {fields : List (String × Value)} (key : String) : has (.object fields) →
    has (.object (Keyed.erase key fields))
  parsed {s : List Char} {j : Json} : Json.parse? s = some j → has (.ofJson j)

/-- A method that changes a list makes it one of its items and of the arguments. -/
theorem exists_of_changed {items args : List Value} {name : String} {reply : Reply}
    {changed : Value} (h : listMethod? items name args = some (.ok reply))
    (hchanged : changed ∈ reply.changed?) :
    ∃ l, changed = .array l ∧ ∀ v ∈ l, v ∈ items ∨ v ∈ args := by
  have added {xs ys : List Value} (hmem : ∀ v ∈ xs ++ ys, v ∈ items ∨ v ∈ args)
      (ho : some ((appended xs ys).map fun l => Reply.changing (.ofNat l.length) l) =
        some (.ok reply)) : ∃ l, changed = .array l ∧ ∀ v ∈ l, v ∈ items ∨ v ∈ args := by
    cases hl : appended xs ys with
    | error e =>
      rw [hl] at ho
      cases ho
    | ok l =>
      rw [hl] at ho
      cases ho
      cases hchanged
      exact ⟨l, rfl, (length_le_of_appended hl).1 ▸ hmem⟩
  have part {v : Value} {l : List Value} (hl : l ⊆ items)
      (ho : some (.ok (Reply.changing v l)) = some (Except.ok reply : Outcome Reply)) :
      ∃ l, changed = .array l ∧ ∀ v ∈ l, v ∈ items ∨ v ∈ args := by
    cases ho
    cases hchanged
    exact ⟨l, rfl, fun v hv => .inl (hl hv)⟩
  have unchanged {α : Type} {o : Outcome α} {f : α → Value}
      (ho : some (o.map fun a => Reply.plain (f a)) = some (.ok reply)) :
      ∃ l, changed = .array l ∧ ∀ v ∈ l, v ∈ items ∨ v ∈ args := by
    cases o with
    | error e => cases ho
    | ok a =>
      cases ho
      cases hchanged
  unfold listMethod? at h
  split at h
  -- pushing and its mirror image, then the methods that leave some of the items
  case h_1 => exact added (fun v hv => List.mem_append.mp hv) h
  case h_4 => exact added (fun v hv => (List.mem_append.mp hv).symm) h
  case h_2 => exact part (List.dropLast_subset items) h
  case h_3 => exact part (List.tail_subset items) h
  case h_5 => exact part (fun v hv => List.mem_reverse.mp hv) h
  -- the others change nothing
  case h_6 => exact unchanged h
  case h_7 | h_8 | h_9 | h_10 =>
    cases h
    cases hchanged
  case h_11 => exact unchanged h
  case h_12 => cases h

namespace Hereditary

variable {has : Value → Prop} (h : Hereditary has)

include h

/-! ### Values that hold no others -/

theorem undefined : has .undefined := h.plain rfl

theorem null : has .null := h.plain rfl

theorem bool (b : Bool) : has (.bool b) := h.plain rfl

theorem number (x : Number) : has (.number x) := h.plain rfl

theorem string (s : String) : has (.string s) := h.plain rfl

theorem ofChars (s : List Char) : has (.ofChars s) := h.plain rfl

theorem getD {v? : Option Value} (hv : ∀ v ∈ v?, has v) : has (v?.getD .undefined) := by
  cases v? with
  | none => exact h.undefined
  | some v => exact hv v rfl

theorem argument {args : List Value} (hargs : ∀ v ∈ args, has v) (i : Nat) :
    has (argument i args) :=
  h.getD fun v hv => hargs v (List.mem_of_getElem? hv)

/-! ### Members -/

theorem item {items : List Value} (hitems : has (.array items)) {v : Value} (hv : v ∈ items) :
    has v :=
  h.array_iff.mp hitems v hv

theorem putAll {fields more : List (String × Value)} (hfields : has (.object fields))
    (hmore : ∀ f ∈ more, has f.2) : has (.object (Keyed.putAll fields more)) := by
  induction more generalizing fields with
  | nil => exact hfields
  | cons f r ih =>
    obtain ⟨hf, hr⟩ := List.forall_mem_cons.mp hmore
    exact ih (h.put f.1 hfields hf) hr

/-- What is read from a value. -/
theorem get {v : Value} (hv : has v) (key : String) : has (v.get key) := by
  cases v with
  | string s =>
    simp only [Value.get]
    split
    · exact h.number _
    · cases (Text.readCount? key.toList).bind fun i => s.toList[i]? with
      | none => exact h.undefined
      | some c => exact h.string _
  | array items =>
    simp only [Value.get]
    split
    · exact h.number _
    · refine h.getD fun w hw => ?_
      obtain ⟨i, -, hi⟩ := Option.bind_eq_some_iff.mp hw
      exact h.item hv (List.mem_of_getElem? hi)
  | object fields => exact h.getD fun w hw => h.field hv _ (Keyed.mem_of_get? hw)
  | regex source flags =>
    simp only [Value.get]
    split
    · exact h.string _
    · split
      · exact h.string _
      · split
        · exact h.bool _
        · exact h.undefined
  | undefined | null | bool | number | function => exact h.undefined

theorem resized {items : List Value} (hitems : has (.array items)) (n : Nat) :
    has (.array (Value.resized n items)) :=
  h.array_iff.mpr fun _ hv => (List.mem_append.mp hv).elim
    (fun hv => h.item hitems (List.mem_of_mem_take hv))
    fun hv => List.eq_of_mem_replicate hv ▸ h.undefined

theorem setItem {items : List Value} (hitems : has (.array items)) {v : Value} (hv : has v)
    (i : Nat) : has (.array (Value.setItem i v items)) := by
  unfold Value.setItem
  split
  · exact h.array_iff.mpr fun w hw => (List.mem_or_eq_of_mem_set hw).elim (h.item hitems)
      fun heq => heq ▸ hv
  · refine h.array_iff.mpr (List.forall_mem_append.mpr ⟨h.array_iff.mp (h.resized hitems i), ?_⟩)
    exact List.forall_mem_singleton.mpr hv

/-- What is written into a value. -/
theorem set? {container v changed : Value} {key : String} (hcontainer : has container) (hv : has v)
    (hset : container.set? key v = some changed) : has changed := by
  cases container with
  | array items =>
    simp only [Value.set?] at hset
    split at hset
    · split at hset
      · cases hset
      · cases hset
        exact h.setItem hcontainer hv _
    · split at hset
      · split at hset
        · split at hset
          · cases hset
            exact h.resized hcontainer _
          · cases hset
        · cases hset
      · cases hset
  | object fields =>
    cases hset
    exact h.put key hcontainer hv
  | undefined | null | bool | number | string | regex | function => cases hset

theorem items {v : Value} (hv : has v) {items : List Value} (hitems : v.items? = some items) :
    ∀ w ∈ items, has w := by
  intro w hw
  cases v with
  | array l =>
    cases hitems
    exact h.item hv hw
  | string s =>
    cases hitems
    obtain ⟨c, -, rfl⟩ := List.mem_map.mp hw
    exact h.string _
  | _ => cases hitems

theorem keysOf (v : Value) : ∀ w ∈ keysOf v, has w := by
  intro w hw
  cases v with
  | object fields =>
    obtain ⟨f, -, rfl⟩ := List.mem_map.mp hw
    exact h.string _
  | array items =>
    obtain ⟨i, -, rfl⟩ := List.mem_map.mp hw
    exact h.ofChars _
  | _ => cases hw

theorem valuesOf {v : Value} (hv : has v) : ∀ w ∈ valuesOf v, has w := by
  intro w hw
  cases v with
  | object fields =>
    obtain ⟨f, hf, rfl⟩ := List.mem_map.mp hw
    exact h.field hv f hf
  | array items => exact h.item hv hw
  | _ => cases hw

/-! ### Operators -/

theorem unary (op : UnaryOp) (v : Value) : has (op.apply v) := by
  cases op <;> exact h.plain rfl

theorem apply {op : BinaryOp} {a b v : Value} (hv : op.apply a b = .ok v) : has v := by
  cases op with
  | add =>
    simp only [BinaryOp.apply] at hv
    split at hv
    · obtain ⟨u, -, hu⟩ := Outcome.exists_of_bind hv
      cases hu
      exact h.string u
    · cases hv
      exact h.number _
  | isIn =>
    obtain ⟨u, -, hu⟩ := Outcome.exists_of_bind hv
    cases hu
    exact h.bool u
  | instanceOf | and | or | nullish => cases hv
  | _ =>
    cases hv
    exact h.plain rfl

/-! ### Methods and functions -/

variable {name : String} {args items : List Value} {v : Value}

theorem part {s : List Char} (hv : IsPart s v) : has v := by
  rcases hv with rfl | ⟨part, -, rfl⟩
  · exact h.undefined
  · exact h.ofChars part

theorem matched {s : List Char} (hv : IsMatch s v) : has v := by
  rcases hv with rfl | ⟨items, rfl, hitems⟩
  · exact h.null
  · exact h.array_iff.mpr fun w hw => h.part (hitems w hw)

theorem textMethod {s : String} (hv : textMethod s name args = .ok v) : has v := by
  cases textReply_of_textMethod hv with
  | number x => exact h.number x
  | bool b => exact h.bool b
  | part hpart => exact h.part hpart
  | measured => exact h.string _
  | parts _ hmatch => exact h.matched hmatch
  | grown t => exact h.string t

theorem regexMethod {source flags : String} (hv : regexMethod source flags name args = .ok v) :
    has v := by
  unfold Script.regexMethod at hv
  obtain ⟨p, -, hv⟩ := Outcome.exists_of_bind hv
  split at hv
  · cases hv
    exact h.bool _
  · cases hv
    exact h.matched (isMatch_matchValue p _)
  · cases hv
    exact h.string _
  · cases hv

theorem numberMethod {x : Number} (hv : numberMethod x name args = .ok v) : has v := by
  obtain ⟨-, t, rfl⟩ := reply_of_numberMethod hv
  exact h.string t

/-- What is joined from lists. -/
theorem joined (hitems : has (.array items)) (hargs : ∀ v ∈ args, has v)
    (hv : IsJoined items args v) : has v := by
  rcases hv with hmem | ⟨w, hw, hv⟩
  · exact h.item hitems hmem
  · cases w with
    | array more => exact h.item (hargs _ hw) hv
    | _ => exact List.mem_singleton.mp hv ▸ hargs _ hw

theorem listReply (hitems : has (.array items)) (hargs : ∀ v ∈ args, has v)
    (hv : ListReply items args name v) : has v := by
  cases hv with
  | number x => exact h.number x
  | bool b => exact h.bool b
  | item hv =>
    rcases hv with rfl | hv
    · exact h.undefined
    · exact h.item hitems hv
  | some _ hl => exact h.array_iff.mpr fun w hw => h.item hitems (hl hw)
  | joined _ hl => exact h.array_iff.mpr fun w hw => h.joined hitems hargs (hl w hw)
  | measured => exact h.string _
  | text t => exact h.string t

/-- A method of a list gives a value with the property, and makes a list of it that has it. -/
theorem listMethod? (hitems : has (.array items)) (hargs : ∀ v ∈ args, has v) {reply : Reply}
    (hreply : listMethod? items name args = some (.ok reply)) :
    has reply.value ∧ ∀ changed ∈ reply.changed?, has changed := by
  refine ⟨h.listReply hitems hargs (listReply_of_listMethod? hreply), fun changed hchanged => ?_⟩
  obtain ⟨l, rfl, hl⟩ := exists_of_changed hreply hchanged
  exact h.array_iff.mpr fun v hv => (hl v hv).elim (h.item hitems) (hargs v)

theorem globalFunction (hargs : ∀ v ∈ args, has v) (hv : globalFunction name args = .ok v) :
    has v := by
  unfold Script.globalFunction at hv
  split at hv
  -- first the functions that may fail or make a list or an object; the others hold no values
  case h_9 =>
    dsimp only at hv
    split at hv
    · cases hv
      exact h.string _
    · cases hv
  case h_10 =>
    cases hv
    exact h.plain rfl
  case h_11 =>
    split at hv
    · unfold blankArray at hv
      split at hv
      · cases hv
      · cases hv
        exact h.array_iff.mpr fun w hw => List.eq_of_mem_replicate hw ▸ h.undefined
    · cases hv
      exact h.array_iff.mpr hargs
  case h_12 =>
    cases hv
    exact h.empty
  case h_13 => cases hv
  all_goals
    cases hv
    exact h.plain rfl

theorem stringify (args : List Value) : has (stringify args) := by
  unfold Script.stringify
  split
  · exact h.undefined
  · exact h.string _

theorem namespaceFunction {space : String} (hargs : ∀ v ∈ args, has v)
    (hv : namespaceFunction space name args = .ok v) : has v := by
  have hfirst : has (Script.argument 0 args) := h.argument hargs 0
  unfold Script.namespaceFunction at hv
  split at hv
  case h_1 =>
    dsimp only at hv
    split at hv
    · rename_i j hj
      cases hv
      exact h.parsed hj
    · cases hv
  case h_2 =>
    cases hv
    exact h.stringify args
  case h_3 =>
    cases hv
    exact h.array_iff.mpr (h.keysOf _)
  case h_4 =>
    cases hv
    exact h.array_iff.mpr (h.valuesOf hfirst)
  case h_6 =>
    cases hv
    refine h.array_iff.mpr ?_
    cases hitems : (Script.argument 0 args).items? with
    | none => exact List.forall_mem_nil _
    | some items => exact h.items hfirst hitems
  case h_8 | h_9 => exact h.globalFunction hargs hv
  case h_5 | h_7 | h_10 =>
    cases hv
    exact h.plain rfl
  case h_11 =>
    dsimp only at hv
    split at hv
    · cases hv
      exact h.number _
    · cases hv

theorem mathConstant (name : String) : has (mathConstant name) := by
  unfold Script.mathConstant
  split
  · exact h.number _
  · exact h.number _
  · exact h.undefined

end Hereditary

end Scrape.Script
