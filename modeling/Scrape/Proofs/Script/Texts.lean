import Scrape.Proofs.Script.Method
import Scrape.Proofs.Script.Spared

/-!
# Script — Texts

The cap on the texts of scripts (`texts`).  Joining texts and repeating one are measured, and most
methods give a part of the text they are called on; texts can grow beyond the cap in templates and
in the methods and functions that the cap names.

Main statement (`texts_bounded_iff`): a run keeps to the cap everywhere if it does there, and in
what it binds and assigns.
-/

namespace Scrape.Script

open Run

namespace Cap

/-- The cap on texts, and where scripts can come to one that is beyond it: literals and templates,
methods that change letters, replace or fill up, and what makes a text of other values. -/
def texts : Cap where
  fits
    | .string s           => s.utf8ByteSize ≤ maxStringSize
    | .regex source flags =>
      source.utf8ByteSize ≤ maxStringSize && flags.utf8ByteSize ≤ maxStringSize
    | _                   => true
  forms
    | .string _    => true
    | .regex ..    => true
    | .template .. => true
    | _            => false
  methods := growing ++
    ["toString", "toFixed", "exec", "keys", "parse", "stringify", "fromCharCode", "get"]
  functions := ["String", "encodeURIComponent", "decodeURIComponent", "RegExp"]

theorem fits_texts_iff {s : String} :
    texts.fits (.string s) = true ↔ s.utf8ByteSize ≤ maxStringSize :=
  decide_eq_true_iff

/-! ### What keeps to the cap -/

theorem texts_mild : texts.Mild where
  undefined := rfl
  null := rfl
  bool _ := rfl
  number _ := rfl
  function _ _ _ := rfl
  word s hs := fits_texts_iff.mpr (Nat.le_trans hs (by decide))
  regex source flags h := by
    obtain ⟨hsource, hflags⟩ := Bool.and_eq_true_iff.mp h
    exact ⟨hsource, hflags⟩
  shorter _ _ _ _ := rfl

theorem texts_within_part {s : String} (hs : texts.fits (.string s) = true) {v : Value}
    (h : IsPart s.toList v) : texts.within v = true := by
  rcases h with rfl | ⟨part, hpart, rfl⟩
  · rfl
  · exact fits_texts_iff.mpr
      (Nat.le_trans (utf8ByteSize_le_of_sublist hpart) (fits_texts_iff.mp hs))

theorem texts_within_textReply {s name : String} (hname : name ∉ texts.methods)
    (hs : texts.fits (.string s) = true) {v : Value} (h : TextReply s name v) :
    texts.within v = true := by
  cases h with
  | number x => rfl
  | bool b => rfl
  | part h => exact texts_within_part hs h
  | measured h => exact fits_texts_iff.mpr h
  | parts _ h =>
    rcases h with rfl | ⟨items, rfl, hitems⟩
    · rfl
    · exact within_array_iff.mpr ⟨rfl, fun w hw => texts_within_part hs (hitems w hw)⟩
  | grown t h => exact absurd (List.mem_append_left _ h) hname

theorem texts_within_listReply {items args : List Value} {name : String}
    (hname : name ∉ texts.methods) (hitems : texts.Within items) (hargs : texts.Within args)
    {v : Value} (h : ListReply items args name v) : texts.within v = true := by
  cases h with
  | number x => rfl
  | bool b => rfl
  | item h =>
    rcases h with rfl | h
    · rfl
    · exact hitems v h
  | some _ h => exact within_array_iff.mpr ⟨rfl, fun w hw => hitems w (h hw)⟩
  | joined _ h =>
    exact within_array_iff.mpr ⟨rfl, fun w hw => within_of_isJoined hitems hargs (h w hw)⟩
  | measured h => exact fits_texts_iff.mpr h
  | text t h => exact absurd (h ▸ by decide) hname

theorem texts_within_globalFunction {name : String} {args : List Value} {v : Value}
    (hname : name ∉ texts.functions) (hargs : texts.Within args)
    (h : globalFunction name args = .ok v) : texts.within v = true := by
  unfold globalFunction at h
  split at h
  case h_3 | h_8 | h_9 | h_10 => exact absurd (by decide) hname
  case h_11 =>
    dsimp only at h
    split at h
    · unfold blankArray at h
      split at h
      · cases h
      · cases h
        exact within_array_iff.mpr ⟨rfl, fun w hw => List.eq_of_mem_replicate hw ▸ rfl⟩
    · cases h
      exact within_array_iff.mpr ⟨rfl, hargs⟩
  case h_13 => cases h
  all_goals
    cases h
    rfl

theorem texts_within_namespaceFunction {space name : String} {args : List Value} {v : Value}
    (hname : name ∉ texts.methods) (hargs : texts.Within args)
    (h : namespaceFunction space name args = .ok v) : texts.within v = true := by
  have hfirst : texts.within (argument 0 args) = true := texts_mild.within_argument hargs 0
  unfold namespaceFunction at h
  split at h
  case h_1 | h_2 | h_3 | h_10 => exact absurd (by decide) hname
  case h_4 =>
    cases h
    exact within_array_iff.mpr ⟨rfl, within_valuesOf hfirst⟩
  case h_6 =>
    cases h
    refine within_array_iff.mpr ⟨rfl, ?_⟩
    cases hitems : (argument 0 args).items? with
    | none => exact List.forall_mem_nil _
    | some items => exact texts_mild.within_items hfirst hitems
  case h_8 | h_9 => exact texts_within_globalFunction (by decide) hargs h
  case h_5 | h_7 =>
    cases h
    rfl
  case h_11 =>
    dsimp only at h
    split at h
    · cases h
      rfl
    · cases h

theorem Sound.texts : texts.Sound where
  toMild := texts_mild
  stringForm _ h := nomatch h
  regexForm _ _ h := nomatch h
  templateForm _ _ h := nomatch h
  arrayForm _ _ _ := rfl
  joined _ _ _ h := fits_texts_iff.mpr (utf8ByteSize_le_of_joined h)
  replaced name hname hnot := by
    refine absurd ?_ hnot
    rcases hname with rfl | rfl <;> decide
  textMethod _ _ _ _ hname hs _ h := texts_within_textReply hname hs (textReply_of_textMethod h)
  listMethod _ _ _ _ hname hitems hargs h :=
    texts_within_listReply hname (within_array_iff.mp hitems).2 hargs (listReply_of_listMethod? h)
  regexMethod _ _ _ _ _ hname _ h := by
    rcases reply_of_regexMethod h with ⟨b, rfl⟩ | rfl | ⟨rfl, -⟩
    · rfl
    · exact absurd (by decide) hname
    · exact absurd (by decide) hname
  numberMethod _ _ _ _ hname h := by
    obtain ⟨rfl | rfl, -⟩ := reply_of_numberMethod h
    · exact absurd (by decide) hname
    · exact absurd (by decide) hname
  sessionGet hnot := absurd (by decide) hnot
  namespaceFunction _ _ _ _ hname hargs h := texts_within_namespaceFunction hname hargs h
  globalFunction _ _ _ hname hargs h := texts_within_globalFunction hname hargs h

end Cap

/-! ### Scripts -/

variable (source : List Char) {result : Value} (baseUrl? : Option String) (session : Session)
  (limit : Nat)

/-- **Texts are bounded where they are watched.**  A run on values within the cap comes to no text
beyond it, in the value of any expression or in a variable, if and only if it comes to none in the
value of a literal, a template or a call that the cap names, and in what it binds to patterns and
assigns to members; and then what is watched is the run itself. -/
theorem texts_bounded_iff (hresult : Cap.texts.within result = true)
    (hbase : ∀ url ∈ baseUrl?, url.utf8ByteSize ≤ maxStringSize) :
    (Cap.texts.Keeps Cap.texts.everywhere source result baseUrl? session limit ↔
      Cap.texts.Keeps Cap.texts.loosely source result baseUrl? session limit) ∧
    (0 < limit → Cap.texts.Keeps Cap.texts.everywhere source result baseUrl? session limit →
      Cap.texts.runWatched Cap.texts.everywhere source result baseUrl? session limit =
        runWith put source result baseUrl? session limit) :=
  ⟨keeps_everywhere_iff .texts hresult fun url hurl => Cap.fits_texts_iff.mpr (hbase url hurl),
    runWatched_eq_runWith⟩

/-- Joins a text to what it is run on, and takes the blanks off. -/
def joiningScript : List Char := "let t = result + ' b '; t.trim()".toList

theorem texts_bounded_joiningScript :
    Cap.texts.within (.string "a") = true ∧
    Cap.texts.Keeps Cap.texts.everywhere joiningScript (.string "a") none Session.empty 100 ∧
    Cap.texts.runWatched Cap.texts.everywhere joiningScript (.string "a") none Session.empty 100 =
      runWith put joiningScript (.string "a") none Session.empty 100 := by
  have hresult : Cap.texts.within (.string "a") = true := by decide
  obtain ⟨hiff, hsame⟩ :=
    texts_bounded_iff joiningScript none Session.empty 100 hresult nofun
  have hkeeps := hiff.mpr (by decide +kernel)
  exact ⟨hresult, hkeeps, hsame (by decide) hkeeps⟩

/-! A template that is longer than the cap, because what stands after its last part is not
measured. -/

/-- The value of a call of a method of a text that is written out. -/
theorem run_textCall {self : Interp} {x name : String} {a : Expr} {v w : Value} {s : State}
    (hx : (self.eval (.string x)).run s = (.ok (.string x), s))
    (ha : (self.evalItems [] [a]).run s = (.ok [v], s))
    (hw : (self.stringMethod x name [v]).run s = (.ok w, s)) :
    (self.evalBody (.call (.member (.string x) (.text name)) [a])).run s = (.ok w, s) := by
  have hcall : (self.callMethod (.string x) name [v]).run s = (.ok (.plain w), s) := by
    change (Reply.plain <$> self.stringMethod x name [v]).run s = _
    rw [map_eq_pure_bind, run_bind_of_ok hw]
    rfl
  have hkey : (self.memberKey (.text name)).run s = (.ok name, s) := rfl
  have hspace : (Interp.namespaceOf? (.string x)).run s = (.ok none, s) := rfl
  exact (run_bind_of_ok hkey).trans ((run_bind_of_ok hspace).trans ((run_bind_of_ok hx).trans
    ((run_bind_of_ok ha).trans (run_bind_of_ok hcall))))

/-- The value of a template with one part and a text after it. -/
theorem run_templateWithTail {self : Interp} {e : Expr} {t : String} {s : State}
    (he : (self.eval e).run s = (.ok (.string t), s)) (ht : t.utf8ByteSize ≤ maxStringSize) :
    (self.evalBody (.template ["", "x"] [e])).run s = (.ok (.string (t ++ "x")), s) := by
  have hjoined : joined ("" ++ String.ofList (Interp.templateText "".toList)) t = .ok t := by
    have hempty : "" ++ String.ofList (Interp.templateText "".toList) = "" := rfl
    rw [hempty, joined, if_neg (by simpa using ht), String.empty_append]
  have htemplate : (self.evalTemplate "" ["", "x"] [e]).run s = (.ok (t ++ "x"), s) := by
    refine (run_bind_of_ok he).trans ?_
    change (ofOutcome
      (joined ("" ++ String.ofList (Interp.templateText "".toList)) t) >>= _).run s = _
    rw [hjoined]
    rfl
  exact run_bind_of_ok htemplate

/-- A template of a text as long as the cap allows, and a letter. -/
def overfullScript : List Char := "`$\x7b'x'.repeat(16777216)\x7dx`".toList

/-- Repeats a text as often as the cap allows. -/
def fullRepetition : Expr :=
  .call (.member (.string "x") (.text "repeat")) [.number (.finite 16777216)]

/-- Whether a script is read as one template of a repeated text and a letter. -/
def isOverfull : Except ParseError (List Stmt) → Bool
  | .ok [.expr (.template [a, b] [.call (.member (.string x) (.text name)) [.number n]])] =>
    a = "" && b = "x" && x = "x" && name = "repeat" && n = .finite 16777216
  | _ => false

theorem eq_of_isOverfull {parsed : Except ParseError (List Stmt)} (h : isOverfull parsed = true) :
    parsed = .ok [.expr (.template ["", "x"] [fullRepetition])] := by
  unfold isOverfull at h
  split at h
  · simp only [Bool.and_eq_true, decide_eq_true_eq] at h
    obtain ⟨⟨⟨⟨rfl, rfl⟩, rfl⟩, rfl⟩, rfl⟩ := h
    rfl
  · cases h

theorem textMethod_fullRepetition : textMethod "x" "repeat" [.number (.finite 16777216)] =
    .ok (.string (repeatedText maxStringSize "x")) := by
  have hcount : (Number.finite 16777216).toCount = maxStringSize := by decide
  change repeatText "x" [.number (.finite 16777216)] = _
  unfold repeatText
  dsimp only [numberArgument]
  rw [if_neg (by decide)]
  exact congrArg (fun n => Except.ok (Value.string (repeatedText n "x"))) hcount

theorem overfullScript_exceeds :
    ∃ t, (run overfullScript .undefined none Session.empty 100).1 = .ok (.string t) ∧
      maxStringSize < t.utf8ByteSize := by
  let full := repeatedText maxStringSize "x"
  let s := stepped (State.initial .undefined none Session.empty 100)
  have hsize : full.utf8ByteSize = maxStringSize := by
    rw [utf8ByteSize_repeatedText]
    decide
  obtain ⟨depth, hdepth⟩ : ∃ depth, maxDepth overfullScript.length = depth + 3 :=
    ⟨maxDepth overfullScript.length - 3, by decide⟩
  have hcall : ((interp put (depth + 2)).eval fullRepetition).run s = (.ok (.string full), s) := by
    change ((interp put (depth + 1)).evalBody fullRepetition).run s = _
    refine run_textCall rfl rfl ?_
    change (ofOutcome (textMethod "x" "repeat" [.number (.finite 16777216)])).run s = _
    rw [textMethod_fullRepetition]
    rfl
  have hvalue : ((interp put (maxDepth overfullScript.length)).eval
      (.template ["", "x"] [fullRepetition])).run s = (.ok (.string (full ++ "x")), s) := by
    rw [hdepth]
    exact run_templateWithTail hcall hsize.le
  refine ⟨full ++ "x", ?_, ?_⟩
  · exact run_of_expr _ _ _ _ (eq_of_isOverfull (by decide +kernel)) rfl (by decide) hvalue
  · rw [String.utf8ByteSize_append, hsize]
    decide

end Scrape.Script
