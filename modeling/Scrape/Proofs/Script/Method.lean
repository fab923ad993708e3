import Mathlib
import Scrape.Proofs.Pattern.Part
import Scrape.Proofs.Script.Cap
import Scrape.Proofs.Text.Blank
import Scrape.Proofs.Text.Find

/-!
# Script — Method

What the methods of texts and lists give, seen by the size of it: a part of the text, a text that
has been measured, a list of parts, or a text that grows without a bound (`TextReply`).

Main statement (`textReply_of_textMethod`): which methods of texts give which.
-/

namespace Scrape.Script

/-! ### Sizes of texts -/

theorem utf8ByteSize_le_of_sublist {part : List Char} {s : String} (h : part.Sublist s.toList) :
    (String.ofList part).utf8ByteSize ≤ s.utf8ByteSize := by
  rw [String.utf8ByteSize_ofList, ← String.utf8Len_toList]
  exact String.utf8Len_le_of_sublist h

theorem utf8ByteSize_repeatedText (n : Nat) (s : String) :
    (repeatedText n s).utf8ByteSize = n * s.utf8ByteSize := by
  unfold repeatedText
  split
  · rename_i hempty
    rw [String.isEmpty_iff.mp hempty]
    rfl
  · induction n with
    | zero => simp [Nat.repeat]
    | succ n ih => rw [Nat.repeat, String.utf8ByteSize_append, ih, Nat.succ_mul]

theorem utf8ByteSize_intercalate (separator : String) (parts : List String) :
    (separator.intercalate parts).utf8ByteSize =
      separator.utf8ByteSize * (parts.length - 1) + (parts.map String.utf8ByteSize).sum := by
  induction parts with
  | nil => rfl
  | cons t r ih =>
    cases r with
    | nil => simp
    | cons u r =>
      rw [String.intercalate_cons_cons, String.utf8ByteSize_append, String.utf8ByteSize_append, ih]
      simp [Nat.mul_succ]
      omega

theorem foldl_utf8ByteSize (parts : List String) (n : Nat) :
    parts.foldl (fun n t => n + t.utf8ByteSize) n = n + (parts.map String.utf8ByteSize).sum := by
  induction parts generalizing n with
  | nil => rfl
  | cons t r ih => simp [ih, Nat.add_assoc]

/-! ### Texts that are measured -/

theorem utf8ByteSize_le_of_joined {s t u : String} (h : joined s t = .ok u) :
    u.utf8ByteSize ≤ maxStringSize := by
  unfold joined at h
  split at h
  · cases h
  · cases h
    rw [String.utf8ByteSize_append]
    exact Nat.not_lt.mp ‹_›

theorem exists_of_joinItems {items args : List Value} {v : Value}
    (h : joinItems items args = .ok v) : ∃ t, v = .string t ∧ t.utf8ByteSize ≤ maxStringSize := by
  simp only [joinItems] at h
  split at h
  · cases h
  · cases h
    refine ⟨_, rfl, ?_⟩
    rw [utf8ByteSize_intercalate, ← foldl_utf8ByteSize]
    exact Nat.not_lt.mp ‹_›

theorem exists_of_repeatText {s : String} {args : List Value} {v : Value}
    (h : repeatText s args = .ok v) : ∃ t, v = .string t ∧ t.utf8ByteSize ≤ maxStringSize := by
  simp only [repeatText] at h
  split at h
  · cases h
  · rename_i hle
    cases h
    simp only [Bool.or_eq_true, decide_eq_true_eq, not_or, Nat.not_lt] at hle
    exact ⟨_, rfl, utf8ByteSize_repeatedText _ s ▸ hle.2⟩

theorem exists_of_concatText {s : String} {args : List Value} {v : Value}
    (h : concatText s args = .ok v) :
    ∃ t, v = .string t ∧ (t = s ∨ t.utf8ByteSize ≤ maxStringSize) := by
  have hfold : ∀ (args : List Value) (acc t : String),
      args.foldlM (fun acc v => joined acc v.text) acc = .ok t →
      t = acc ∨ t.utf8ByteSize ≤ maxStringSize := by
    intro args
    induction args with
    | nil =>
      intro acc t ht
      cases ht
      exact .inl rfl
    | cons v r ih =>
      intro acc t ht
      rw [List.foldlM_cons] at ht
      obtain ⟨u, hjoined, ht⟩ := Outcome.exists_of_bind ht
      rcases ih u t ht with rfl | hle
      · exact .inr (utf8ByteSize_le_of_joined hjoined)
      · exact .inr hle
  unfold concatText at h
  obtain ⟨t, ht, heq⟩ := Outcome.exists_of_bind h
  cases heq
  exact ⟨t, rfl, hfold args s t ht⟩

theorem exists_of_padText {s : String} {atStart : Bool} {args : List Value} {v : Value}
    (h : padText s atStart args = .ok v) : ∃ t, v = .string t := by
  have given (short : Bool) (t u : String)
      (h : (if short then return .string t else return .string u : Outcome Value) = .ok v) :
      ∃ t, v = .string t := by
    split at h
    · cases h
      exact ⟨t, rfl⟩
    · cases h
      exact ⟨u, rfl⟩
  unfold padText at h
  by_cases hlong : maxStringSize < (numberArgument 0 (.finite 0) args).toCount
  · simp only [if_pos hlong] at h
    cases h
  · simp only [if_neg hlong] at h
    exact given _ _ _ h

/-! ### Parts of texts -/

/-- Nothing, or a part of a text. -/
def IsPart (s : List Char) (v : Value) : Prop :=
  v = .undefined ∨ ∃ part : List Char, part.Sublist s ∧ v = .ofChars part

theorem sublist_between {α : Type} (a b : Nat) (l : List α) : (between a b l).Sublist l :=
  (List.take_sublist _ _).trans (List.drop_sublist _ _)

theorem isPart_groupValue {s : List Char} {group : Option (List Char)}
    (h : ∀ part, group = some part → part.Sublist s) : IsPart s (groupValue group) := by
  cases group with
  | none => exact .inl rfl
  | some part => exact .inr ⟨part, h part rfl, rfl⟩

/-- The pieces that a text is split into, before some of them are taken. -/
def piecesOf (s : List Char) (args : List Value) : Outcome (List (List Char)) :=
  match given? 0 args with
  | none                       => .ok [s]
  | some (.regex source flags) => (·.split s) <$> compile source flags
  | some separator             =>
    .ok (if separator.text.toList.isEmpty then s.map ([·])
      else Text.splitOn separator.text.toList s)

theorem sublist_of_piecesOf {s : List Char} {args : List Value} {pieces : List (List Char)}
    (h : piecesOf s args = .ok pieces) : ∀ piece ∈ pieces, piece.Sublist s := by
  intro piece hpiece
  unfold piecesOf at h
  split at h
  · cases h
    exact List.mem_singleton.mp hpiece ▸ .refl s
  · rw [map_eq_pure_bind] at h
    obtain ⟨p, -, hp⟩ := Outcome.exists_of_bind h
    cases hp
    exact Pattern.Compiled.sublist_of_mem_split hpiece
  · cases h
    split at hpiece
    · obtain ⟨c, hc, rfl⟩ := List.mem_map.mp hpiece
      exact List.singleton_sublist.mpr hc
    · rename_i hne
      refine (Text.infix_of_mem_splitOn (fun h => hne ?_) hpiece).sublist
      rw [h]
      rfl

theorem splitText_eq (s : List Char) (args : List Value) :
    splitText s args = piecesOf s args >>= fun pieces =>
      .ok (.array ((match given? 1 args with
        | some v => pieces.take v.toNumber.toCount
        | none   => pieces).map .ofChars)) := by
  unfold splitText piecesOf
  cases given? 1 args with
  | none =>
    cases given? 0 args with
    | none => rfl
    | some w => cases w <;> rfl
  | some limit =>
    cases given? 0 args with
    | none => rfl
    | some w => cases w <;> rfl

theorem exists_of_splitText {s : List Char} {args : List Value} {v : Value}
    (h : splitText s args = .ok v) : ∃ items, v = .array items ∧ ∀ w ∈ items, IsPart s w := by
  rw [splitText_eq] at h
  obtain ⟨pieces, hpieces, h⟩ := Outcome.exists_of_bind h
  cases h
  refine ⟨_, rfl, fun w hw => ?_⟩
  obtain ⟨piece, hpiece, rfl⟩ := List.mem_map.mp hw
  refine .inr ⟨piece, sublist_of_piecesOf hpieces piece ?_, rfl⟩
  split at hpiece
  · exact List.mem_of_mem_take hpiece
  · exact hpiece

/-- The value of a match is null, or a list of parts of the text. -/
def IsMatch (s : List Char) (v : Value) : Prop :=
  v = .null ∨ ∃ items, v = .array items ∧ ∀ w ∈ items, IsPart s w

theorem isMatch_matchValue (p : Pattern.Compiled) (s : List Char) : IsMatch s (matchValue p s) := by
  unfold matchValue
  split
  · rename_i m hm
    refine .inr ⟨_, rfl, fun w hw => ?_⟩
    obtain ⟨group, hgroup, rfl⟩ := List.mem_map.mp hw
    exact isPart_groupValue fun part hpart =>
      Pattern.Compiled.sublist_of_match? hm (hpart ▸ hgroup)
  · exact .inl rfl

theorem isMatch_found (p : Pattern.Compiled) (s : List Char) :
    IsMatch s (.array ((p.allMatches s).map fun m => groupValue (m.groups.head?.join))) := by
  refine .inr ⟨_, rfl, fun w hw => ?_⟩
  obtain ⟨m, hm, rfl⟩ := List.mem_map.mp hw
  refine isPart_groupValue fun part hpart => Pattern.Compiled.sublist_of_mem_allMatches hm ?_
  cases hgroups : m.groups with
  | nil =>
    rw [hgroups] at hpart
    cases hpart
  | cons group r =>
    rw [hgroups] at hpart
    exact hpart ▸ List.mem_cons_self

theorem isMatch_of_matchText {s : List Char} {args : List Value} {v : Value}
    (h : matchText s args = .ok v) : IsMatch s v := by
  unfold matchText at h
  obtain ⟨p, -, h⟩ := Outcome.exists_of_bind h
  -- not split: the condition holds a match of its own
  rcases ite_eq_iff.mp h with ⟨-, h⟩ | ⟨-, h⟩
  · cases h
    exact isMatch_matchValue p s
  · split at h
    · cases h
      exact .inl rfl
    · cases h
      exact isMatch_found p s

/-! ### Methods of texts -/

/-- The methods of texts that give a text which can be longer than all they are given. -/
def growing : List String :=
  ["toUpperCase", "toLocaleUpperCase", "toLowerCase", "toLocaleLowerCase", "replace", "replaceAll",
    "padStart", "padEnd"]

/-- What a method of a text gives: a value that holds no text, a part of the text, a text that is
measured, a list of parts, or, for some methods, any text. -/
inductive TextReply (s name : String) : Value → Prop where
  | number (x : Number) : TextReply s name (.number x)
  | bool (b : Bool) : TextReply s name (.bool b)
  | part {v : Value} : IsPart s.toList v → TextReply s name v
  | measured {t : String} : t.utf8ByteSize ≤ maxStringSize → TextReply s name (.string t)
  | parts {v : Value} : name = "split" ∨ name = "match" → IsMatch s.toList v → TextReply s name v
  | grown (t : String) : name ∈ growing → TextReply s name (.string t)

theorem TextReply.itself (s name : String) : TextReply s name (.string s) :=
  .part (.inr ⟨s.toList, .refl _, by rw [Value.ofChars, String.ofList_toList]⟩)

theorem TextReply.sublist {s name : String} {part : List Char} (h : part.Sublist s.toList) :
    TextReply s name (.ofChars part) :=
  .part (.inr ⟨part, h, rfl⟩)

theorem TextReply.place (s name : String) (found : Option (List Char × List Char)) :
    TextReply s name (foundPlace found) := by
  unfold foundPlace
  split <;> exact .number _

theorem sublist_itemAt? {α : Type} (x : Number) (l : List α) : (itemAt? x l).toList.Sublist l := by
  unfold itemAt?
  split
  · exact List.nil_sublist _
  · cases h : l[x.toCount]? with
    | none => exact List.nil_sublist _
    | some a => exact List.singleton_sublist.mpr (List.mem_of_getElem? h)

theorem textReply_of_textMethod {s name : String} {args : List Value} {v : Value}
    (h : textMethod s name args = .ok v) : TextReply s name v := by
  unfold textMethod at h
  split at h
  -- the letters made large or small
  case h_1 | h_2 | h_3 | h_4 => cases h; exact .grown _ (by decide)
  -- trimming
  case h_5 => cases h; exact .sublist (Text.infix_trim _).sublist
  case h_6 | h_7 => cases h; exact .sublist (Text.suffix_trimStart _).sublist
  case h_8 | h_9 => cases h; exact .sublist (Text.prefix_trimEnd _).sublist
  case h_10 | h_11 => cases h; exact .itself s _
  -- characters, and places
  case h_12 => cases h; exact .sublist (sublist_itemAt? _ _)
  case h_13 =>
    cases h
    cases itemAt? (numberArgument 0 (.finite 0) args) s.toList with
    | none => exact .number _
    | some c => exact .number _
  case h_14 | h_15 => cases h; exact .place s _ _
  case h_16 | h_17 | h_18 => cases h; exact .bool _
  -- parts
  case h_19 => cases h; exact .sublist (sublist_between _ _ _)
  case h_20 => cases h; exact .sublist (sublist_between _ _ _)
  case h_21 => cases h; exact .sublist ((List.take_sublist _ _).trans (List.drop_sublist _ _))
  case h_22 => exact .parts (.inl rfl) (.inr (exists_of_splitText h))
  case h_25 => exact .parts (.inr rfl) (isMatch_of_matchText h)
  case h_23 | h_24 =>
    unfold replaceText at h
    obtain ⟨needle, -, h⟩ := Outcome.exists_of_bind h
    cases h
    exact .grown _ (by decide)
  case h_26 =>
    obtain ⟨p, -, h⟩ := Outcome.exists_of_bind h
    cases h
    dsimp only
    split <;> exact .number _
  case h_27 | h_28 =>
    obtain ⟨t, rfl⟩ := exists_of_padText h
    exact .grown t (by decide)
  -- texts that are measured
  case h_29 =>
    obtain ⟨t, rfl, ht⟩ := exists_of_repeatText h
    exact .measured ht
  case h_30 =>
    obtain ⟨t, rfl, rfl | ht⟩ := exists_of_concatText h
    · exact .itself t _
    · exact .measured ht
  case h_31 =>
    cases h
    cases compareText s (textArgument 0 args) <;> exact .number _
  case h_32 =>
    cases h
    cases itemAt? _ s.toList with
    | none => exact .part (.inl rfl)
    | some c =>
      refine .measured (Nat.le_trans ?_ (show 4 ≤ maxStringSize by decide))
      rw [String.utf8ByteSize_singleton]
      exact c.utf8Size_le_four
  case h_33 => cases h

/-! ### Methods of lists -/

theorem length_le_of_appended {xs ys zs : List Value} (h : appended xs ys = .ok zs) :
    zs = xs ++ ys ∧ zs.length ≤ maxItems := by
  unfold appended at h
  split at h
  · cases h
  · cases h
    exact ⟨rfl, by rw [List.length_append]; exact Nat.not_lt.mp ‹_›⟩

/-- What an argument adds to a list: its items if it is a list, or else itself. -/
def addedItems : Value → List Value
  | .array more => more
  | v           => [v]

theorem concatItems_cons (items : List Value) (v : Value) (args : List Value) :
    concatItems items (v :: args) =
      appended items (addedItems v) >>= fun next => concatItems next args := by
  cases v <;> rfl

/-- Where an item of a list comes from that is joined from a list and from what is added to it. -/
def IsJoined (items args : List Value) (w : Value) : Prop :=
  w ∈ items ∨ ∃ v ∈ args, w ∈ addedItems v

theorem within_of_isJoined {cap : Cap} {items args : List Value} (hitems : cap.Within items)
    (hargs : cap.Within args) {w : Value} (h : IsJoined items args w) : cap.within w = true := by
  rcases h with hmem | ⟨v, hv, hw⟩
  · exact hitems w hmem
  · cases v with
    | array more => exact (Cap.within_array_iff.mp (hargs _ hv)).2 w hw
    | _ => exact List.mem_singleton.mp hw ▸ hargs _ hv

theorem isJoined_of_concatItems {items args l : List Value} (h : concatItems items args = .ok l) :
    (l = items ∨ l.length ≤ maxItems) ∧ ∀ w ∈ l, IsJoined items args w := by
  induction args generalizing items with
  | nil =>
    cases h
    exact ⟨.inl rfl, fun w hw => .inl hw⟩
  | cons v r ih =>
    rw [concatItems_cons] at h
    obtain ⟨next, hnext, h⟩ := Outcome.exists_of_bind h
    obtain ⟨hlength, hjoined⟩ := ih h
    obtain ⟨heq, hle⟩ := length_le_of_appended hnext
    refine ⟨.inr (hlength.elim (fun h => h ▸ hle) id), fun w hw => ?_⟩
    rcases hjoined w hw with hmem | ⟨v', hv', hw⟩
    · rw [heq] at hmem
      exact (List.mem_append.mp hmem).imp id fun hmore => ⟨v, List.mem_cons_self, hmore⟩
    · exact .inr ⟨v', List.mem_cons_of_mem v hv', hw⟩

/-- What a method of a list that calls no function gives: a value that holds no others, an item, a
list of some of the items, a list that is joined and counted, a text that is measured, or the text
of the list. -/
inductive ListReply (items args : List Value) (name : String) : Value → Prop where
  | number (x : Number) : ListReply items args name (.number x)
  | bool (b : Bool) : ListReply items args name (.bool b)
  | item {v : Value} : v = .undefined ∨ v ∈ items → ListReply items args name v
  | some {l : List Value} : l.length ≤ items.length → l ⊆ items →
      ListReply items args name (.array l)
  | joined {l : List Value} : l = items ∨ l.length ≤ maxItems → (∀ w ∈ l, IsJoined items args w) →
      ListReply items args name (.array l)
  | measured {t : String} : t.utf8ByteSize ≤ maxStringSize → ListReply items args name (.string t)
  | text (t : String) : name = "toString" → ListReply items args name (.string t)

theorem listReply_of_listMethod? {items args : List Value} {name : String} {reply : Reply}
    (h : listMethod? items name args = some (.ok reply)) :
    ListReply items args name reply.value := by
  have counted {o : Outcome (List Value)}
      (h : some (o.map fun l => Reply.changing (.ofNat l.length) l) = some (.ok reply)) :
      ListReply items args name reply.value := by
    cases o with
    | error e => cases h
    | ok l =>
      cases h
      exact .number _
  unfold listMethod? at h
  split at h
  -- lengths of what is added to
  case h_1 | h_4 => exact counted h
  -- items that are taken off
  case h_2 =>
    cases h
    refine .item ?_
    cases hlast : items.getLast? with
    | none => exact .inl rfl
    | some v => exact .inr (List.mem_of_getLast? hlast)
  case h_3 =>
    cases h
    refine .item ?_
    cases items with
    | nil => exact .inl rfl
    | cons v r => exact .inr List.mem_cons_self
  -- the list turned round, its texts, and a part of it
  case h_5 =>
    cases h
    exact .some (Nat.le_of_eq items.length_reverse) fun v => List.mem_reverse.mp
  case h_6 =>
    cases hjoin : joinItems items args with
    | error e =>
      rw [hjoin] at h
      cases h
    | ok v =>
      rw [hjoin] at h
      cases h
      obtain ⟨t, rfl, ht⟩ := exists_of_joinItems hjoin
      exact .measured ht
  case h_7 =>
    cases h
    exact .text _ rfl
  case h_8 =>
    cases h
    exact .some (sublist_between _ _ _).length_le (sublist_between _ _ _).subset
  -- where an item is found, and whether it is
  case h_9 =>
    cases h
    cases items.findIdx? _ with
    | none => exact .number _
    | some i => exact .number _
  case h_10 =>
    cases h
    exact .bool _
  -- lists that are joined
  case h_11 =>
    cases hconcat : concatItems items args with
    | error e =>
      rw [hconcat] at h
      cases h
    | ok l =>
      rw [hconcat] at h
      cases h
      obtain ⟨hlength, hjoined⟩ := isJoined_of_concatItems hconcat
      exact .joined hlength hjoined
  case h_12 => cases h

/-! ### Methods of regular expressions and numbers -/

/-- A regular expression tells whether it matches, gives a match, or its text. -/
theorem reply_of_regexMethod {source flags name : String} {args : List Value} {v : Value}
    (h : regexMethod source flags name args = .ok v) :
    (∃ b, v = .bool b) ∨ name = "exec" ∨ name = "toString" ∧ ∃ t, v = .string t := by
  unfold regexMethod at h
  obtain ⟨p, -, h⟩ := Outcome.exists_of_bind h
  split at h
  · cases h
    exact .inl ⟨_, rfl⟩
  · exact .inr (.inl rfl)
  · cases h
    exact .inr (.inr ⟨rfl, _, rfl⟩)
  · cases h

/-- A number gives its digits. -/
theorem reply_of_numberMethod {x : Number} {name : String} {args : List Value} {v : Value}
    (h : numberMethod x name args = .ok v) :
    (name = "toFixed" ∨ name = "toString") ∧ ∃ t, v = .string t := by
  unfold numberMethod at h
  split at h
  · cases h
    exact ⟨.inl rfl, _, rfl⟩
  · cases h
    exact ⟨.inr rfl, _, rfl⟩
  · cases h

end Scrape.Script
