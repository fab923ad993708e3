import Mathlib.Data.List.Basic
import Scrape.Script.Interp

/-!
# Script — Cap

A cap on the values of scripts, and the places of a script where a value can be beyond it: forms of
expressions, and calls by the name of what they call (`Cap`).  Nothing else in a script gives a
value beyond the cap if what it works on is within it (`Cap.Sound`); in particular, what is read
from a value within the cap is (`Cap.Mild`).
-/

namespace Scrape.Script

/-- A cap on values, and where a script can come to a value that is beyond it. -/
structure Cap where
  /-- Whether a value is within the cap, its parts left aside. -/
  fits : Value → Bool
  /-- The expressions, other than calls, that can have a value beyond the cap. -/
  forms : Expr → Bool
  /-- The methods, and the functions in namespaces, that can give a value beyond the cap. -/
  methods : List String
  /-- The functions without a namespace that can give a value beyond the cap. -/
  functions : List String

namespace Cap

section

variable (cap : Cap)

mutual

/-- Whether the value and all its parts are within the cap. -/
def within : Value → Bool
  | .array items   => cap.fits (.array items) && allWithin items
  | .object fields => fieldsWithin fields
  | v              => cap.fits v

/-- Whether the values are within the cap. -/
def allWithin : List Value → Bool
  | []     => true
  | v :: r => within v && allWithin r

/-- Whether the values of properties are within the cap. -/
def fieldsWithin : List (String × Value) → Bool
  | []          => true
  | (_, v) :: r => within v && fieldsWithin r

end

/-- Whether the expression can have a value beyond the cap when what it works on is within it.  A
method that is named only while the script runs can be any. -/
def loose : Expr → Bool
  | .call (.member _ (.text name)) _ => cap.methods.contains name
  | .call (.member ..) _             => true
  | .call (.name n) _                => cap.functions.contains n
  | .construct (.name n) _           => cap.functions.contains n
  | e                                => cap.forms e

end

variable {cap : Cap}

theorem allWithin_iff {items : List Value} :
    cap.allWithin items = true ↔ ∀ v ∈ items, cap.within v = true := by
  induction items with
  | nil => simp [allWithin]
  | cons v r ih => simp [allWithin, ih]

theorem fieldsWithin_iff {fields : List (String × Value)} :
    cap.fieldsWithin fields = true ↔ ∀ f ∈ fields, cap.within f.2 = true := by
  induction fields with
  | nil => simp [fieldsWithin]
  | cons f r ih => simp [fieldsWithin, ih]

theorem within_array_iff {items : List Value} : cap.within (.array items) = true ↔
    cap.fits (.array items) = true ∧ ∀ v ∈ items, cap.within v = true := by
  rw [within, Bool.and_eq_true, allWithin_iff]

theorem within_object_iff {fields : List (String × Value)} :
    cap.within (.object fields) = true ↔ ∀ f ∈ fields, cap.within f.2 = true := by
  rw [within, fieldsWithin_iff]

/-! ### Caps that scripts keep -/

/-- The values are within the cap. -/
abbrev Within (cap : Cap) (values : List Value) : Prop := ∀ v ∈ values, cap.within v = true

/-- Values that hold no others, and short texts, are within the cap; the parts of a regular
expression that is are too, and so is a list that is no longer than one that is. -/
structure Mild (cap : Cap) : Prop where
  undefined : cap.fits .undefined = true
  null : cap.fits .null = true
  bool (b : Bool) : cap.fits (.bool b) = true
  number (x : Number) : cap.fits (.number x) = true
  function (id : Nat) (params : List Binding) (body : Body) :
    cap.fits (.function id params body) = true
  word (s : String) : s.utf8ByteSize ≤ 64 → cap.fits (.string s) = true
  regex (source flags : String) : cap.fits (.regex source flags) = true →
    cap.fits (.string source) = true ∧ cap.fits (.string flags) = true
  shorter (long short : List Value) : cap.fits (.array long) = true →
    short.length ≤ long.length → cap.fits (.array short) = true

/-- Scripts come to no value beyond the cap but where the cap says: a form or a call that is not
loose gives a value within it, if what it works on is. -/
structure Sound (cap : Cap) : Prop extends cap.Mild where
  stringForm (s : String) : cap.forms (.string s) = false → cap.fits (.string s) = true
  regexForm (source flags : String) : cap.forms (.regex source flags) = false →
    cap.fits (.regex source flags) = true
  templateForm (texts : List String) (parts : List Expr) :
    cap.forms (.template texts parts) = false → ∀ s, cap.fits (.string s) = true
  arrayForm (items : List Expr) : cap.forms (.array items) = false →
    ∀ values, cap.fits (.array values) = true
  joined (s t u : String) : Script.joined s t = .ok u → cap.fits (.string u) = true
  replaced (name : String) : name = "replace" ∨ name = "replaceAll" → name ∉ cap.methods →
    ∀ s, cap.fits (.string s) = true
  textMethod (s name : String) (args : List Value) (v : Value) : name ∉ cap.methods →
    cap.fits (.string s) = true → cap.Within args →
    Script.textMethod s name args = .ok v → cap.within v = true
  listMethod (items : List Value) (name : String) (args : List Value) (reply : Reply) :
    name ∉ cap.methods → cap.within (.array items) = true → cap.Within args →
    listMethod? items name args = some (.ok reply) → cap.within reply.value = true
  regexMethod (source flags name : String) (args : List Value) (v : Value) :
    name ∉ cap.methods → cap.Within args →
    Script.regexMethod source flags name args = .ok v → cap.within v = true
  numberMethod (x : Number) (name : String) (args : List Value) (v : Value) :
    name ∉ cap.methods → Script.numberMethod x name args = .ok v → cap.within v = true
  sessionGet : "get" ∉ cap.methods → ∀ s, cap.fits (.string s) = true
  namespaceFunction (space name : String) (args : List Value) (v : Value) :
    name ∉ cap.methods → cap.Within args →
    Script.namespaceFunction space name args = .ok v → cap.within v = true
  globalFunction (name : String) (args : List Value) (v : Value) : name ∉ cap.functions →
    cap.Within args → Script.globalFunction name args = .ok v → cap.within v = true

namespace Mild

variable (h : cap.Mild)

include h

theorem within_undefined : cap.within .undefined = true := h.undefined

theorem within_character (c : Char) : cap.within (.string (String.singleton c)) = true := by
  refine h.word _ ?_
  have := c.utf8Size_le_four
  simp
  omega

theorem within_kind (v : Value) : cap.within (.string v.kind) = true := by
  refine h.word _ ?_
  cases v <;> simp only [Value.kind] <;> decide

theorem within_getD {o : Option Value} (ho : ∀ v ∈ o, cap.within v = true) :
    cap.within (o.getD .undefined) = true := by
  cases o with
  | none => exact h.undefined
  | some v => exact ho v rfl

theorem within_argument {args : List Value} (hargs : cap.Within args) (i : Nat) :
    cap.within (argument i args) = true :=
  h.within_getD fun _ hv => hargs _ (List.mem_of_getElem? hv)

/-- What is read from a value within the cap is within it. -/
theorem within_get {v : Value} (hv : cap.within v = true) (key : String) :
    cap.within (v.get key) = true := by
  cases v with
  | string s =>
    simp only [Value.get]
    split
    · exact h.number _
    · cases (Text.readCount? key.toList).bind fun i => s.toList[i]? with
      | none => exact h.undefined
      | some c => exact h.within_character c
  | array items =>
    simp only [Value.get]
    split
    · exact h.number _
    · refine h.within_getD fun w hw => ?_
      obtain ⟨i, -, hi⟩ := Option.bind_eq_some_iff.mp hw
      exact (within_array_iff.mp hv).2 w (List.mem_of_getElem? hi)
  | object fields =>
    exact h.within_getD fun w hw => within_object_iff.mp hv _ (Keyed.mem_of_get? hw)
  | regex source flags =>
    simp only [Value.get]
    split
    · exact (h.regex source flags hv).1
    · split
      · exact (h.regex source flags hv).2
      · split
        · exact h.bool _
        · exact h.undefined
  | undefined | null | bool | number | function => exact h.undefined

theorem within_items {v : Value} (hv : cap.within v = true) {items : List Value}
    (hitems : v.items? = some items) : cap.Within items := by
  intro w hw
  cases v with
  | array l =>
    cases hitems
    exact (within_array_iff.mp hv).2 w hw
  | string s =>
    cases hitems
    obtain ⟨c, -, rfl⟩ := List.mem_map.mp hw
    exact h.within_character c
  | _ => cases hitems

/-- A list of values from within a list, and no longer than it. -/
theorem within_shorter {long short : List Value} (hlong : cap.within (.array long) = true)
    (hlength : short.length ≤ long.length) (hshort : cap.Within short) :
    cap.within (.array short) = true :=
  within_array_iff.mpr ⟨h.shorter _ _ (within_array_iff.mp hlong).1 hlength, hshort⟩

theorem within_unary (op : UnaryOp) (v : Value) : cap.within (op.apply v) = true := by
  cases op with
  | not => exact h.bool _
  | minus | plus | complement => exact h.number _
  | typeOf => exact h.within_kind v
  | void | delete => exact h.undefined

theorem within_kindOfName (name : String) :
    cap.within (.string (Interp.kindOfName name)) = true := by
  refine h.word _ ?_
  unfold Interp.kindOfName
  split
  · decide
  · split <;> decide

theorem within_mathConstant (name : String) : cap.within (mathConstant name) = true := by
  unfold mathConstant
  split
  · exact h.number _
  · exact h.number _
  · exact h.undefined

end Mild

theorem within_valuesOf {v : Value} (hv : cap.within v = true) : cap.Within (valuesOf v) := by
  intro w hw
  cases v with
  | object fields =>
    obtain ⟨f, hf, rfl⟩ := List.mem_map.mp hw
    exact within_object_iff.mp hv f hf
  | array items => exact (within_array_iff.mp hv).2 w hw
  | _ => cases hw

theorem Sound.within_apply (h : cap.Sound) {op : BinaryOp} {a b v : Value}
    (hv : op.apply a b = .ok v) : cap.within v = true := by
  cases op with
  | add =>
    simp only [BinaryOp.apply] at hv
    split at hv
    · obtain ⟨u, hjoined, hu⟩ := Outcome.exists_of_bind hv
      cases hu
      exact h.joined _ _ _ hjoined
    · cases hv
      exact h.number _
  | isIn =>
    simp only [BinaryOp.apply] at hv
    obtain ⟨u, -, hu⟩ := Outcome.exists_of_bind hv
    cases hu
    exact h.bool _
  | equal | notEqual | same | notSame | less | lessEqual | greater | greaterEqual =>
    cases hv
    exact h.bool _
  | sub | mul | div | mod | pow | bitAnd | bitOr | bitXor | shiftLeft | shiftRight |
      shiftRightZero =>
    cases hv
    exact h.number _
  | instanceOf | and | or | nullish => cases hv

/-! ### No cap -/

/-- The cap that every value is within. -/
def free : Cap := ⟨fun _ => true, fun _ => false, [], []⟩

mutual

theorem within_free : ∀ v : Value, free.within v = true
  | .array items   => within_array_iff.mpr ⟨rfl, allWithin_iff.mp (allWithin_free items)⟩
  | .object fields => by rw [within, fieldsWithin_free fields]
  | .undefined | .null | .bool _ | .number _ | .string _ | .regex .. | .function .. => rfl

theorem allWithin_free : ∀ items : List Value, free.allWithin items = true
  | []     => rfl
  | v :: r => by rw [allWithin, within_free v, allWithin_free r, Bool.and_self]

theorem fieldsWithin_free : ∀ fields : List (String × Value), free.fieldsWithin fields = true
  | []          => rfl
  | (_, v) :: r => by rw [fieldsWithin, within_free v, fieldsWithin_free r, Bool.and_self]

end

theorem Sound.free : Cap.free.Sound where
  undefined := rfl
  null := rfl
  bool _ := rfl
  number _ := rfl
  function _ _ _ := rfl
  word _ _ := rfl
  regex _ _ _ := ⟨rfl, rfl⟩
  shorter _ _ _ _ := rfl
  stringForm _ _ := rfl
  regexForm _ _ _ := rfl
  templateForm _ _ _ _ := rfl
  arrayForm _ _ _ := rfl
  joined _ _ _ _ := rfl
  replaced _ _ _ _ := rfl
  textMethod _ _ _ _ _ _ _ _ := within_free _
  listMethod _ _ _ _ _ _ _ _ := within_free _
  regexMethod _ _ _ _ _ _ _ _ := within_free _
  numberMethod _ _ _ _ _ _ := within_free _
  sessionGet _ _ := rfl
  namespaceFunction _ _ _ _ _ _ _ := within_free _
  globalFunction _ _ _ _ _ _ := within_free _

end Cap

end Scrape.Script
