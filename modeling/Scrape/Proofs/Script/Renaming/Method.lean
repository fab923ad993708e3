import Scrape.Proofs.Script.Method
import Scrape.Proofs.Script.Renaming.Value
import Scrape.Script.Method.Global
import Scrape.Script.Method.List

/-!
# Script — Renaming — Method

What the functions and methods that scripts find give for values that are renamed.  They look at the
code of no function, so that they give renamed values, and fail for the same reason; only that a name
is not defined is said by that name (`Failure.Renamed`).

Main statements (`outcome_listMethod?`, `outcome_namespaceFunction`, `outcome_globalFunction`).
-/

namespace Scrape.Script

/-- The second failure is the first one, with the name renamed that is not defined. -/
inductive Failure.Renamed (r : Renaming) : Failure → Failure → Prop
  | same (f : Failure) : Failure.Renamed r f f
  | notDefined {a b : String} : r.names a b →
      Failure.Renamed r (.fault (.notDefined a)) (.fault (.notDefined b))

theorem Failure.Renamed.isCatchable_eq {r : Renaming} {f f' : Failure} (h : f.Renamed r f') :
    f.isCatchable = f'.isCatchable := by
  cases h <;> rfl

/-- Where names are kept, failures are. -/
theorem Failure.Renamed.eq {r : Renaming} (hr : r.KeepsNames) {f f' : Failure}
    (h : f.Renamed r f') : f = f' := by
  cases h with
  | same => rfl
  | notDefined hab => rw [hr _ _ hab]

variable (r : Renaming)

/-- The second outcome is the first one renamed. -/
abbrev OutcomeRenamed {α : Type} (P : α → α → Prop) (o o' : Outcome α) : Prop :=
  EndsAlike (fun f f' : Cause => f.val.Renamed r f'.val) P o o'

/-- The second reply is the first one renamed. -/
structure Reply.Renamed (reply reply' : Reply) : Prop where
  value : reply.value.Renamed r reply'.value
  changed? : ValueRenamed? r reply.changed? reply'.changed?

variable {r}

namespace OutcomeRenamed

variable {α β : Type} {P : α → α → Prop} {Q : β → β → Prop}

theorem fault (f : Fault) : OutcomeRenamed r P (Outcome.fault f) (Outcome.fault f) :=
  .error (.same _)

theorem map {o o' : Outcome α} {f f' : α → β} (h : OutcomeRenamed r P o o')
    (hf : ∀ a a', P a a' → Q (f a) (f' a')) : OutcomeRenamed r Q (o.map f) (o'.map f') := by
  cases h with
  | ok ha => exact .ok (hf _ _ ha)
  | error he => exact .error he

theorem bind {o o' : Outcome α} {f f' : α → Outcome β} (h : OutcomeRenamed r P o o')
    (hf : ∀ a a', P a a' → OutcomeRenamed r Q (f a) (f' a')) :
    OutcomeRenamed r Q (o >>= f) (o' >>= f') := by
  cases h with
  | ok ha => exact hf _ _ ha
  | error he => exact .error he

/-- What is the same on both sides is renamed if its value is. -/
theorem of_self {o : Outcome α} (h : ∀ a, o = .ok a → P a a) : OutcomeRenamed r P o o := by
  cases o with
  | ok a => exact .ok (h a rfl)
  | error f => exact .error (.same _)

end OutcomeRenamed

/-! ### Values without functions -/

theorem renamed_self_of_isPart {s : List Char} {v : Value} (h : IsPart s v) : v.Renamed r v := by
  obtain rfl | ⟨part, -, rfl⟩ := h
  · exact .undefined
  · exact .string _

theorem renamed_self_of_isMatch {s : List Char} {v : Value} (h : IsMatch s v) : v.Renamed r v := by
  obtain rfl | ⟨items, rfl, hitems⟩ := h
  · exact .null
  · exact .array (List.forall₂_same.mpr fun w hw => renamed_self_of_isPart (hitems w hw))

theorem renamed_self_of_textReply {s name : String} {v : Value} (h : TextReply s name v) :
    v.Renamed r v := by
  cases h with
  | number x => exact .number x
  | bool b => exact .bool b
  | part h => exact renamed_self_of_isPart h
  | measured _ => exact .string _
  | parts _ h => exact renamed_self_of_isMatch h
  | grown t _ => exact .string t

theorem renamed_self_groupValue (group : Option (List Char)) :
    (groupValue group).Renamed r (groupValue group) := by
  cases group with
  | none => exact .undefined
  | some part => exact .string _

mutual

theorem renamed_self_ofJson : ∀ j : Json, (Value.ofJson j).Renamed r (Value.ofJson j)
  | .null      => .null
  | .bool b    => .bool b
  | .number n  => .number n.toNumber
  | .string s  => .string s
  | .array js  => .array (renamed_self_itemsOfJson js .nil)
  | .object fs => .object (renamed_self_fieldsOfJson fs .nil)

theorem renamed_self_itemsOfJson : ∀ (js : List Json) {acc : List Value}, ItemsRenamed r acc acc →
    ItemsRenamed r (Value.itemsOfJson acc js) (Value.itemsOfJson acc js)
  | [],      _, hacc => List.rel_reverse hacc
  | j :: js, _, hacc => renamed_self_itemsOfJson js (.cons (renamed_self_ofJson j) hacc)

theorem renamed_self_fieldsOfJson : ∀ (fs : List (String × Json)) {acc : List (String × Value)},
    PropertiesRenamed r acc acc →
    PropertiesRenamed r (Value.fieldsOfJson acc fs) (Value.fieldsOfJson acc fs)
  | [],           _, hacc => List.rel_reverse hacc
  | (k, j) :: fs, _, hacc =>
    renamed_self_fieldsOfJson fs (.cons (.mk k (renamed_self_ofJson j)) hacc)

end

theorem renamed_self_of_forall_string {items : List Value} (h : ∀ v ∈ items, ∃ s, v = .string s) :
    ItemsRenamed r items items :=
  List.forall₂_same.mpr fun v hv => by
    obtain ⟨s, rfl⟩ := h v hv
    exact .string s

/-! ### Arguments -/

section Arguments

variable {args args' : List Value} (h : ItemsRenamed r args args')

include h

theorem renamed_argument (i : Nat) : (argument i args).Renamed r (argument i args') :=
  rel_getD (forall₂_getElem? h i) .undefined

theorem textArgument_eq (i : Nat) : textArgument i args = textArgument i args' := by
  unfold textArgument
  obtain ⟨hi, hi'⟩ | ⟨v, v', hi, hi', hv⟩ := exists_of_rel (forall₂_getElem? h i)
  · rw [hi, hi']
  · rw [hi, hi']
    exact hv.text_eq

theorem numberArgument_eq (i : Nat) (default : Number) :
    numberArgument i default args = numberArgument i default args' := by
  unfold numberArgument
  obtain ⟨hi, hi'⟩ | ⟨v, v', hi, hi', hv⟩ := exists_of_rel (forall₂_getElem? h i)
  · rw [hi, hi']
  · rw [hi, hi']
    exact hv.toNumber_eq

theorem renamed_given? (i : Nat) : ValueRenamed? r (given? i args) (given? i args') := by
  unfold given?
  obtain ⟨hi, hi'⟩ | ⟨v, v', hi, hi', hv⟩ := exists_of_rel (forall₂_getElem? h i)
  · rw [hi, hi']
    exact .none
  · rw [hi, hi', Option.filter_some, Option.filter_some, hv.isUndefined_eq]
    split
    · exact .some hv
    · exact .none

/-- What is read off an argument that is given. -/
theorem given?_elim_eq {α : Type} (i : Nat) (a : α) {f : Value → α}
    (hf : ∀ v v', v.Renamed r v' → f v = f v') : (given? i args).elim a f =
      (given? i args').elim a f := by
  obtain ⟨hi, hi'⟩ | ⟨v, v', hi, hi', hv⟩ := exists_of_rel (renamed_given? h i)
  · rw [hi, hi']
  · rw [hi, hi']
    exact hf v v' hv

theorem placeArgument_eq (i len default : Nat) :
    placeArgument i len default args = placeArgument i len default args' := by
  obtain ⟨hi, hi'⟩ | ⟨v, v', hi, hi', hv⟩ := exists_of_rel (renamed_given? h i)
  · simp only [placeArgument, hi, hi']
  · simp only [placeArgument, hi, hi', hv.toNumber_eq]

/-! ### Methods of texts -/

theorem substring_eq (cs : List Char) : substring cs args = substring cs args' := by
  obtain ⟨h0, h0'⟩ | ⟨v, v', h0, h0', hv⟩ := exists_of_rel (renamed_given? h 0) <;>
  obtain ⟨h1, h1'⟩ | ⟨w, w', h1, h1', hw⟩ := exists_of_rel (renamed_given? h 1)
  · simp only [substring, h0, h0', h1, h1']
  · simp only [substring, h0, h0', h1, h1', hw.toNumber_eq]
  · simp only [substring, h0, h0', h1, h1', hv.toNumber_eq]
  · simp only [substring, h0, h0', h1, h1', hv.toNumber_eq, hw.toNumber_eq]

theorem piecesOf_eq (cs : List Char) : piecesOf cs args = piecesOf cs args' := by
  obtain ⟨h0, h0'⟩ | ⟨v, v', h0, h0', hv⟩ := exists_of_rel (renamed_given? h 0)
  · simp only [piecesOf, h0, h0']
  · have htext := hv.text_eq
    cases hv <;> simp only [piecesOf, h0, h0', htext]

theorem splitText_eq_of_renamed (cs : List Char) : splitText cs args = splitText cs args' := by
  rw [splitText_eq, splitText_eq, piecesOf_eq h]
  obtain ⟨h1, h1'⟩ | ⟨v, v', h1, h1', hv⟩ := exists_of_rel (renamed_given? h 1)
  · rw [h1, h1']
  · simp only [h1, h1', hv.toNumber_eq]

omit h in
theorem needle_eq {v v' : Value} (hv : v.Renamed r v') : Needle.ofValue v = Needle.ofValue v' := by
  have htext := hv.text_eq
  cases hv <;> simp only [Needle.ofValue, htext]

theorem replaceText_eq (cs : List Char) (all : Bool) :
    replaceText cs all args = replaceText cs all args' := by
  have hfirst := rel_getD (forall₂_getElem? h 0) (Value.Renamed.string "")
  rw [replaceText, replaceText, needle_eq hfirst, textArgument_eq h]

theorem patternArgument_eq : patternArgument args = patternArgument args' := by
  cases h with
  | nil => rfl
  | cons hv _ =>
    have htext := hv.text_eq
    cases hv <;> simp only [patternArgument, List.head?_cons, htext]

theorem matchText_eq (cs : List Char) : matchText cs args = matchText cs args' := by
  have hpattern := patternArgument_eq h
  cases h with
  | nil => rfl
  | cons hv _ =>
    rw [matchText, matchText, hpattern]
    cases hv <;> rfl

theorem padText_eq (s : String) (atStart : Bool) : padText s atStart args = padText s atStart args' := by
  simp only [padText, numberArgument_eq h, given?_elim_eq h 1 " " fun _ _ => Value.Renamed.text_eq]

theorem concatText_eq (s : String) : concatText s args = concatText s args' := by
  unfold concatText
  congr 1
  induction h generalizing s with
  | nil => rfl
  | cons hv _ ih =>
    rw [List.foldlM_cons, List.foldlM_cons, hv.text_eq]
    congr 1
    funext t
    exact ih t

theorem repeatText_eq (s : String) : repeatText s args = repeatText s args' := by
  simp only [repeatText, numberArgument_eq h]

theorem textMethod_eq (s name : String) : textMethod s name args = textMethod s name args' := by
  have hcount := given?_elim_eq h 1 s.length (f := fun v => v.toNumber.toCount)
    fun _ _ hv => by rw [hv.toNumber_eq]
  simp only [textMethod, textArgument_eq h, numberArgument_eq h, placeArgument_eq h,
    substring_eq h, splitText_eq_of_renamed h, replaceText_eq h, patternArgument_eq h, matchText_eq h,
    padText_eq h, concatText_eq h, repeatText_eq h, hcount]

/-- **A method of a text** gives the same for arguments that are renamed, and no function. -/
theorem outcome_textMethod (s name : String) : OutcomeRenamed r (Value.Renamed r)
    (textMethod s name args) (textMethod s name args') := by
  rw [textMethod_eq h]
  exact .of_self fun v hv => renamed_self_of_textReply (textReply_of_textMethod hv)

/-! ### Methods of lists -/

variable {items items' : List Value} (hitems : ItemsRenamed r items items')

include hitems

omit h in
theorem outcome_appended (hargs : ItemsRenamed r args args') :
    OutcomeRenamed r (ItemsRenamed r) (appended items args) (appended items' args') := by
  unfold appended
  rw [hitems.length_eq, hargs.length_eq]
  split
  · exact .fault _
  · exact .ok (List.rel_append hitems hargs)

theorem joinItems_eq : joinItems items args = joinItems items' args' := by
  have htexts : items.map itemText = items'.map itemText :=
    forall₂_map_eq hitems fun v v' hv => by rw [itemText, itemText, hv.isNullish_eq, hv.text_eq]
  simp only [joinItems, given?_elim_eq h 0 "," fun _ _ => Value.Renamed.text_eq, htexts]

omit h hitems in
theorem renamed_addedItems {v v' : Value} (hv : v.Renamed r v') :
    ItemsRenamed r (addedItems v) (addedItems v') := by
  cases hv with
  | array hmore => exact hmore
  | undefined => exact .cons .undefined .nil
  | null => exact .cons .null .nil
  | bool b => exact .cons (.bool b) .nil
  | number x => exact .cons (.number x) .nil
  | string s => exact .cons (.string s) .nil
  | object hfields => exact .cons (.object hfields) .nil
  | regex source flags => exact .cons (.regex source flags) .nil
  | function id hparams hbody => exact .cons (.function id hparams hbody) .nil

theorem outcome_concatItems : OutcomeRenamed r (ItemsRenamed r) (concatItems items args)
    (concatItems items' args') := by
  induction h generalizing items items' with
  | nil => exact .ok hitems
  | cons hv _ ih =>
    rw [concatItems_cons, concatItems_cons]
    exact (outcome_appended hitems (renamed_addedItems hv)).bind fun next next' hnext => ih hnext

omit h in
theorem findIdx?_same_eq {v v' : Value} (hv : v.Renamed r v') :
    items.findIdx? (·.same v) = items'.findIdx? (·.same v') :=
  forall₂_findIdx?_eq hitems fun _ _ hw => hw.same_eq hv

/-- **A method of a list** gives renamed values for values that are renamed. -/
theorem outcome_listMethod? (name : String) :
    Option.Rel (OutcomeRenamed r (Reply.Renamed r)) (listMethod? items name args)
      (listMethod? items' name args') := by
  have hlast := rel_getD (forall₂_getLast? hitems) Value.Renamed.undefined
  have hfirst := rel_getD (forall₂_head? hitems) Value.Renamed.undefined
  have hreverse : ItemsRenamed r items.reverse items'.reverse := List.rel_reverse hitems
  have counted {l l' : List Value} (hl : ItemsRenamed r l l') :
      (Reply.changing (.ofNat l.length) l).Renamed r (.changing (.ofNat l'.length) l') :=
    ⟨hl.length_eq ▸ .number _, .some (.array hl)⟩
  have plain {v v' : Value} (hv : v.Renamed r v') : (Reply.plain v).Renamed r (.plain v') :=
    ⟨hv, .none⟩
  unfold listMethod?
  split
  · exact .some ((outcome_appended hitems h).map fun _ _ => counted)
  · exact .some (.ok ⟨hlast, .some (.array (forall₂_dropLast hitems))⟩)
  · exact .some (.ok ⟨hfirst, .some (.array (forall₂_tail hitems))⟩)
  · exact .some ((outcome_appended h hitems).map fun _ _ => counted)
  · exact .some (.ok ⟨.array hreverse, .some (.array hreverse)⟩)
  · rw [joinItems_eq h hitems]
    refine .some (OutcomeRenamed.map (P := Value.Renamed r) (.of_self fun v hv => ?_)
      fun _ _ => plain)
    obtain ⟨t, rfl, -⟩ := exists_of_joinItems hv
    exact .string t
  · rw [(Value.Renamed.array hitems).text_eq]
    exact .some (.ok (plain (.string _)))
  · simp only [placeArgument_eq h, hitems.length_eq]
    exact .some (.ok (plain (.array (List.forall₂_take _ (List.forall₂_drop _ hitems)))))
  · rw [findIdx?_same_eq hitems (renamed_argument h 0)]
    refine .some (.ok (plain ?_))
    cases items'.findIdx? _ with
    | none => exact .number _
    | some i => exact .number _
  · refine .some (.ok (plain ?_))
    rw [forall₂_any_eq hitems fun _ _ hv => hv.same_eq (renamed_argument h 0)]
    exact .bool _
  · exact .some ((outcome_concatItems h hitems).map fun _ _ hl => plain (.array hl))
  · exact .none

end Arguments

/-! ### Methods of numbers and regular expressions -/

section Others

variable {args args' : List Value} (h : ItemsRenamed r args args')

include h

theorem outcome_numberMethod (x : Number) (name : String) : OutcomeRenamed r (Value.Renamed r)
    (numberMethod x name args) (numberMethod x name args') := by
  have heq : numberMethod x name args = numberMethod x name args' := by
    simp only [numberMethod, numberArgument_eq h]
  rw [heq]
  refine .of_self fun v hv => ?_
  obtain ⟨-, t, rfl⟩ := reply_of_numberMethod hv
  exact .string t

theorem outcome_regexMethod (source flags name : String) : OutcomeRenamed r (Value.Renamed r)
    (regexMethod source flags name args) (regexMethod source flags name args') := by
  have heq : regexMethod source flags name args = regexMethod source flags name args' := by
    simp only [regexMethod, textArgument_eq h]
  rw [heq]
  refine .of_self fun v hv => ?_
  unfold regexMethod at hv
  obtain ⟨p, -, hv⟩ := Outcome.exists_of_bind hv
  split at hv
  · cases hv
    exact .bool _
  · cases hv
    exact renamed_self_of_isMatch (isMatch_matchValue p _)
  · cases hv
    exact .string _
  · cases hv

/-! ### Functions that are found without declaring them -/

omit h in
theorem outcome_blankArray (n : Number) :
    OutcomeRenamed r (Value.Renamed r) (blankArray n) (blankArray n) := by
  unfold blankArray
  split
  · exact .fault _
  · exact .ok (.array (forall₂_replicate _ .undefined))

theorem renamed_regexOfArguments : (regexOfArguments args).Renamed r (regexOfArguments args') := by
  have hsource := renamed_argument h 0
  have hflags := renamed_argument h 1
  have htext := hsource.text_eq
  have hflagsText := hflags.text_eq
  unfold regexOfArguments
  generalize argument 0 args = v at *
  generalize argument 0 args' = v' at *
  generalize argument 1 args = w at *
  generalize argument 1 args' = w' at *
  cases hsource <;> cases hflags <;> simp only [htext, hflagsText] <;> exact .regex _ _

theorem outcome_globalFunction_self (name : String) : OutcomeRenamed r (Value.Renamed r)
    (globalFunction name args) (globalFunction name args') := by
  have hfirst := renamed_argument h 0
  unfold globalFunction
  simp only [hfirst.text_eq, hfirst.toNumber_eq, hfirst.isTrue_eq, textArgument_eq h,
    numberArgument_eq h]
  split
  · obtain ⟨h1, h1'⟩ | ⟨v, v', h1, h1', hv⟩ := exists_of_rel (forall₂_getElem? h 1)
    · rw [h1, h1']
      exact .ok (.number _)
    · rw [h1, h1', Option.map_some, Option.map_some, hv.toNumber_eq]
      exact .ok (.number _)
  · exact .ok (.number _)
  · exact .ok (.string _)
  · exact .ok (.number _)
  · exact .ok (.bool _)
  · exact .ok (.bool _)
  · exact .ok (.bool _)
  · exact .ok (.string _)
  · split
    · exact .ok (.string _)
    · exact .fault _
  · exact .ok (renamed_regexOfArguments h)
  · cases h with
    | nil => exact .ok (.array .nil)
    | cons hv hr =>
      have items : OutcomeRenamed r (Value.Renamed r) _ _ := .ok (.array (.cons hv hr))
      cases hr with
      | cons => cases hv <;> exact items
      | nil =>
        cases hv with
        | number n => exact outcome_blankArray n
        | _ => exact items
  · exact .ok (.object .nil)
  · exact .fault _

omit h in
theorem globalFunction_of_not_mem {name : String} (hname : name ∉ reservedNames)
    (args : List Value) : globalFunction name args = .fault (.notDefined name) := by
  unfold globalFunction
  split
  case h_13 => rfl
  -- the names of the functions that there are
  all_goals exact absurd (by decide) hname

/-- **A function without a namespace** gives renamed values for values that are renamed.  Where there
is none of a name, it is not defined. -/
theorem outcome_globalFunction {a b : String} (hab : r.names a b) :
    OutcomeRenamed r (Value.Renamed r) (globalFunction a args) (globalFunction b args') := by
  obtain rfl | ⟨ha, hb⟩ := r.eq_or_not_mem hab
  · exact outcome_globalFunction_self h a
  · rw [globalFunction_of_not_mem ha, globalFunction_of_not_mem hb]
    exact .error (.notDefined hab)

theorem mathFunction?_eq (name : String) : mathFunction? name args = mathFunction? name args' := by
  have hnumbers : args.map Value.toNumber = args'.map Value.toNumber :=
    forall₂_map_eq h fun _ _ => Value.Renamed.toNumber_eq
  simp only [mathFunction?, numberArgument_eq h, hnumbers]

omit h in
theorem keysOf_eq {v v' : Value} (hv : v.Renamed r v') : keysOf v = keysOf v' := by
  cases hv with
  | array hitems => simp only [keysOf, hitems.length_eq]
  | object hfields => exact forall₂_map_eq hfields fun _ _ hf => by cases hf; rfl
  | _ => rfl

omit h in
theorem renamed_keysOf {v v' : Value} (hv : v.Renamed r v') :
    ItemsRenamed r (keysOf v) (keysOf v') := by
  rw [keysOf_eq hv]
  refine renamed_self_of_forall_string fun w hw => ?_
  cases v' with
  | array items =>
    obtain ⟨i, -, rfl⟩ := List.mem_map.mp hw
    exact ⟨_, rfl⟩
  | object fields =>
    obtain ⟨f, -, rfl⟩ := List.mem_map.mp hw
    exact ⟨_, rfl⟩
  | _ => cases hw

omit h in
theorem renamed_valuesOf {v v' : Value} (hv : v.Renamed r v') :
    ItemsRenamed r (valuesOf v) (valuesOf v') := by
  cases hv with
  | array hitems => exact hitems
  | object hfields => exact List.rel_map (fun _ _ hf => by cases hf; assumption) hfields
  | _ => exact .nil

theorem textOfCodes_eq : textOfCodes args = textOfCodes args' := by
  unfold textOfCodes
  induction h with
  | nil => rfl
  | cons hv _ ih => simp only [List.filterMap_cons, hv.toNumber_eq, ih]

theorem renamed_stringify : (stringify args).Renamed r (stringify args') := by
  have hvalue := (renamed_argument h 0).toJson?_eq
  have hspace := renamed_argument h 2
  unfold stringify
  rw [hvalue]
  generalize argument 2 args = v at hspace
  generalize argument 2 args' = v' at hspace
  split
  · exact .undefined
  · cases hspace <;> exact .string _

/-- **A function of a namespace** gives renamed values for values that are renamed. -/
theorem outcome_namespaceFunction (space name : String) : OutcomeRenamed r (Value.Renamed r)
    (namespaceFunction space name args) (namespaceFunction space name args') := by
  have hfirst := renamed_argument h 0
  unfold namespaceFunction
  generalize argument 0 args = v at hfirst
  generalize argument 0 args' = v' at hfirst
  split
  · dsimp only
    rw [hfirst.text_eq]
    split
    · exact .ok (renamed_self_ofJson _)
    · exact .error (.same _)
  · exact .ok (renamed_stringify h)
  · exact .ok (.array (renamed_keysOf hfirst))
  · exact .ok (.array (renamed_valuesOf hfirst))
  · cases hfirst <;> exact .ok (.bool _)
  · exact .ok (.array (rel_getD hfirst.items? .nil))
  · cases hfirst <;> exact .ok (.bool _)
  · exact outcome_globalFunction_self h _
  · exact outcome_globalFunction_self h _
  · rw [textOfCodes_eq h]
    exact .ok (.string _)
  · dsimp only
    rw [mathFunction?_eq h]
    split
    · exact .ok (.number _)
    · exact .fault _

end Others

/-! ### Operators -/

section Operators

variable {v v' w w' : Value}

theorem renamed_mathConstant (name : String) :
    (mathConstant name).Renamed r (mathConstant name) := by
  unfold mathConstant
  split
  · exact .number _
  · exact .number _
  · exact .undefined

theorem renamed_unary (op : UnaryOp) (h : v.Renamed r v') : (op.apply v).Renamed r (op.apply v') := by
  cases op <;> simp only [UnaryOp.apply, h.isTrue_eq, h.toNumber_eq, h.kind_eq] <;> constructor

theorem outcome_hasKey (h : v.Renamed r v') (key : String) :
    OutcomeRenamed r Eq (v.hasKey key) (v'.hasKey key) := by
  cases h with
  | array hitems => exact .ok (by rw [hitems.length_eq])
  | object hfields => exact .ok (has_eq hfields key)
  | _ => exact .fault _

/-- **An operator between values** gives renamed values for values that are renamed. -/
theorem outcome_binary (op : BinaryOp) (h : v.Renamed r v') (hw : w.Renamed r w') :
    OutcomeRenamed r (Value.Renamed r) (op.apply v w) (op.apply v' w') := by
  have numbers (f : Number → Number → Number) :
      OutcomeRenamed r (Value.Renamed r) (onNumbers f v w) (onNumbers f v' w') := by
    rw [onNumbers, onNumbers, h.toNumber_eq, hw.toNumber_eq]
    exact .ok (.number _)
  have truth (b : Bool) : OutcomeRenamed r (Value.Renamed r) (.ok (.bool b)) (.ok (.bool b)) :=
    .ok (.bool b)
  have order (p : Ordering → Bool) :
      OutcomeRenamed r (Value.Renamed r) (onOrder p v w) (onOrder p v' w') := by
    rw [onOrder, onOrder, h.compare?_eq hw]
    exact .ok (.bool _)
  cases op with
  | add =>
    simp only [BinaryOp.apply, h.addsAsText_eq, hw.addsAsText_eq, h.text_eq, hw.text_eq]
    split
    · exact OutcomeRenamed.map (P := Eq) (.of_self fun _ _ => rfl) fun s t hst => hst ▸ .string s
    · exact numbers _
  | equal | notEqual =>
    simp only [BinaryOp.apply, h.equals_eq hw]
    exact truth _
  | same | notSame =>
    simp only [BinaryOp.apply, h.same_eq hw]
    exact truth _
  | less | lessEqual | greater | greaterEqual => exact order _
  | isIn =>
    rw [BinaryOp.apply, BinaryOp.apply, h.text_eq]
    exact (outcome_hasKey hw _).map fun b b' hb => hb ▸ .bool b
  | instanceOf | and | or | nullish => exact .fault _
  | _ => exact numbers _

end Operators

end Scrape.Script
