import Scrape.Proofs.Script.Method
import Scrape.Proofs.Script.Spared

/-!
# Script — Items

The cap on the lists of scripts (`Cap.items`).  What adds items to a list counts them, and most
methods give a list that is no longer than the one they are called on; lists can grow beyond the cap
where they are written out, and in the methods and functions that the cap names.

Main statement (`items_bounded_iff`): a run keeps to the cap everywhere if it does there, and in
what it binds and assigns.
-/

namespace Scrape.Script

open Run

namespace Cap

/-- The cap on lists, and where scripts can come to one that is beyond it: lists that are written
out, and what makes a list of a text, of the parts of a value, or of arguments. -/
def items : Cap where
  fits
    | .array l => l.length ≤ maxItems
    | _        => true
  forms
    | .array _ => true
    | _        => false
  methods := ["split", "match", "exec", "keys", "values", "from", "parse"]
  functions := ["Array"]

theorem fits_items_iff {l : List Value} : items.fits (.array l) = true ↔ l.length ≤ maxItems :=
  decide_eq_true_iff

/-! ### What keeps to the cap -/

theorem items_mild : items.Mild where
  undefined := rfl
  null := rfl
  bool _ := rfl
  number _ := rfl
  function _ _ _ := rfl
  word _ _ := rfl
  regex _ _ _ := ⟨rfl, rfl⟩
  shorter _ _ hlong hle := fits_items_iff.mpr (Nat.le_trans hle (fits_items_iff.mp hlong))

theorem items_within_textReply {s name : String} (hname : name ∉ items.methods) {v : Value}
    (h : TextReply s name v) : items.within v = true := by
  cases h with
  | number x => rfl
  | bool b => rfl
  | part h => rcases h with rfl | ⟨part, -, rfl⟩ <;> rfl
  | measured h => rfl
  | parts h _ => exact absurd (by rcases h with rfl | rfl <;> decide) hname
  | grown t h => rfl

theorem items_within_listReply {l args : List Value} {name : String}
    (hl : items.within (.array l) = true) (hargs : items.Within args) {v : Value}
    (h : ListReply l args name v) : items.within v = true := by
  obtain ⟨hfits, heach⟩ := within_array_iff.mp hl
  cases h with
  | number x => rfl
  | bool b => rfl
  | item h =>
    rcases h with rfl | h
    · rfl
    · exact heach v h
  | some hle h => exact items_mild.within_shorter hl hle fun w hw => heach w (h hw)
  | joined hle h =>
    refine within_array_iff.mpr ⟨?_, fun w hw => within_of_isJoined heach hargs (h w hw)⟩
    rcases hle with rfl | hle
    · exact hfits
    · exact fits_items_iff.mpr hle
  | measured h => rfl
  | text t h => rfl

theorem items_within_globalFunction {name : String} {args : List Value} {v : Value}
    (hname : name ∉ items.functions) (h : globalFunction name args = .ok v) :
    items.within v = true := by
  unfold globalFunction at h
  split at h
  case h_9 =>
    dsimp only at h
    split at h
    · cases h
      rfl
    · cases h
  case h_11 => exact absurd (by decide) hname
  case h_13 => cases h
  all_goals
    cases h
    rfl

theorem items_within_namespaceFunction {space name : String} {args : List Value} {v : Value}
    (hname : name ∉ items.methods) (h : namespaceFunction space name args = .ok v) :
    items.within v = true := by
  unfold namespaceFunction at h
  split at h
  case h_1 | h_3 | h_4 | h_6 => exact absurd (by decide) hname
  case h_2 =>
    cases h
    unfold stringify
    split <;> rfl
  case h_8 | h_9 => exact items_within_globalFunction (by decide) h
  case h_5 | h_7 | h_10 =>
    cases h
    rfl
  case h_11 =>
    dsimp only at h
    split at h
    · cases h
      rfl
    · cases h

theorem Sound.items : items.Sound where
  toMild := items_mild
  stringForm _ _ := rfl
  regexForm _ _ _ := rfl
  templateForm _ _ _ _ := rfl
  arrayForm _ h := nomatch h
  joined _ _ _ _ := rfl
  replaced _ _ _ _ := rfl
  textMethod _ _ _ _ hname _ _ h := items_within_textReply hname (textReply_of_textMethod h)
  listMethod _ _ _ _ _ hl hargs h := items_within_listReply hl hargs (listReply_of_listMethod? h)
  regexMethod _ _ _ _ _ hname _ h := by
    rcases reply_of_regexMethod h with ⟨b, rfl⟩ | rfl | ⟨-, t, rfl⟩
    · rfl
    · exact absurd (by decide) hname
    · rfl
  numberMethod _ _ _ _ _ h := by
    obtain ⟨-, t, rfl⟩ := reply_of_numberMethod h
    rfl
  sessionGet _ _ := rfl
  namespaceFunction _ _ _ _ hname _ h := items_within_namespaceFunction hname h
  globalFunction _ _ _ hname _ h := items_within_globalFunction hname h

end Cap

/-! ### Scripts -/

variable (source : List Char) {result : Value} (baseUrl? : Option String) (session : Session)
  (limit : Nat)

/-- Adds to a list, and joins it with another. -/
def addingScript : List Char := "let l = [1, result]; l.push(3); l.concat([4, 5])".toList

/-- The value of a list that is written out with the items of another list and one more. -/
theorem run_listWithTail {self : Interp} {e last : Expr} {l : List Value} {v : Value} {s : State}
    (he : (self.eval e).run s = (.ok (.array l), s))
    (hlast : ∀ acc, (self.evalItems acc [last]).run s = (.ok (v :: acc).reverse, s)) :
    (self.evalBody (.array [.spread e, last])).run s = (.ok (.array (l ++ [v])), s) := by
  have hitems : (self.evalItems [] [.spread e, last]).run s = (.ok (l ++ [v]), s) := by
    have hlist : (Interp.itemsOf (.array l)).run s = (.ok l, s) := rfl
    refine (run_bind_of_ok he).trans ((run_bind_of_ok hlist).trans ?_)
    rw [hlast]
    simp
  exact run_bind_of_ok hitems

/-- A list as long as the cap allows, and one more item. -/
def overlongScript : List Char := "[...Array(1048576), 1]".toList

/-- A list as long as the cap allows. -/
def fullList : Expr := .call (.name "Array") [.number (.finite 1048576)]

/-- Whether a script is read as the items of a blank list and one more. -/
def isOverlong : Except ParseError (List Stmt) → Bool
  | .ok [.expr (.array [.spread (.call (.name f) [.number n]), .number m])] =>
    f = "Array" && n = .finite 1048576 && m = .finite 1
  | _ => false

theorem eq_of_isOverlong {parsed : Except ParseError (List Stmt)} (h : isOverlong parsed = true) :
    parsed = .ok [.expr (.array [.spread fullList, .number (.finite 1)])] := by
  unfold isOverlong at h
  split at h
  · simp only [Bool.and_eq_true, decide_eq_true_eq] at h
    obtain ⟨⟨rfl, rfl⟩, rfl⟩ := h
    rfl
  · cases h

theorem globalFunction_fullList : globalFunction "Array" [.number (.finite 1048576)] =
    .ok (.array (List.replicate maxItems .undefined)) := by
  have hcount : (Number.finite 1048576).toCount = maxItems := by decide
  change blankArray (.finite 1048576) = _
  rw [blankArray, if_neg (by decide), hcount]

end Scrape.Script
