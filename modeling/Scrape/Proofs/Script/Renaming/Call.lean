import Scrape.Proofs.Script.Renaming.Machine

/-!
# Script — Renaming — Call

A machine that respects a renaming does the same on the methods that call functions, on calls, and on
all expressions.  Where a name is no variable, it can be that of a function or a namespace; such
names are reserved, and so the same on both sides.

Main statement (`Interp.Respects.evalBody`): it respects the renaming on expressions.
-/

namespace Scrape.Script

open Run

variable {r : Renaming}

/-! ### Names that are no variables -/

theorem Interp.kindOfName_of_not_mem {name : String} (h : name ∉ reservedNames) :
    kindOfName name = "undefined" := by
  have hne {c : String} (hc : c ∈ reservedNames) : name ≠ c := fun heq => h (heq ▸ hc)
  simp [kindOfName, hne (show "NaN" ∈ reservedNames by decide),
    hne (show "Infinity" ∈ reservedNames by decide), hne (show "JSON" ∈ reservedNames by decide),
    hne (show "Math" ∈ reservedNames by decide), hne (show "context" ∈ reservedNames by decide),
    hne (show "java" ∈ reservedNames by decide), hne (show "console" ∈ reservedNames by decide)]

theorem mem_reservedNames_of_isNamespace {name : String} (h : isNamespace name = true) :
    name ∈ reservedNames := by
  simp only [isNamespace, List.contains_eq_mem, decide_eq_true_eq] at h
  revert h
  simp only [reservedNames, List.mem_cons]
  grind

theorem kindOfName_eq {a b : String} (hab : r.names a b) :
    Interp.kindOfName a = Interp.kindOfName b := by
  obtain rfl | ⟨ha, hb⟩ := r.eq_or_not_mem hab
  · rfl
  · rw [Interp.kindOfName_of_not_mem ha, Interp.kindOfName_of_not_mem hb]

namespace Interp

theorem namespaceOf?_renamed {e e' : Expr} (he : e.Renamed r e') :
    RunRenamed r Eq (namespaceOf? e) (namespaceOf? e') := by
  cases he with
  | @name a b hab =>
    refine (RunRenamed.lookup? hab).bind fun v? v'? hv => .pure ?_
    rw [rel_isNone hv]
    obtain rfl | ⟨ha, hb⟩ := r.eq_or_not_mem hab
    · rfl
    · rw [eq_false_of_ne_true (mt mem_reservedNames_of_isNamespace ha),
        eq_false_of_ne_true (mt mem_reservedNames_of_isNamespace hb)]
      rfl
  | _ => exact .pure rfl

theorem callback_renamed {args args' : List Value} (h : ItemsRenamed r args args') :
    GivesRenamed r (callback args) (callback args') := by
  cases h with
  | nil => exact .fault _
  | cons hv _ =>
    cases hv with
    | function id hparams hbody => exact .pure (.function id hparams hbody)
    | _ => exact .fault _

end Interp

namespace Interp.Respects

variable {self : Interp} (h : self.Respects r)

include h

/-! ### Methods that call functions -/

omit h in
theorem renamed_afterCall (name : String) (i : Nat) {item item' out out' : Value}
    (hitem : item.Renamed r item') (hout : out.Renamed r out') {acc acc' : List Value}
    (hacc : ItemsRenamed r acc acc') :
    Sum.LiftRel (Value.Renamed r) (ItemsRenamed r) (afterCall name i item out acc)
      (afterCall name i item' out' acc') := by
  unfold afterCall
  rw [hout.isTrue_eq]
  split
  · exact .inr (.cons hout hacc)
  · split
    · exact .inr (.cons hitem hacc)
    · exact .inr hacc
  · split
    · exact .inl hitem
    · exact .inr hacc
  · split
    · exact .inl (.number _)
    · exact .inr hacc
  · split
    · exact .inl (.bool _)
    · exact .inr hacc
  · split
    · exact .inr hacc
    · exact .inl (.bool _)
  · exact .inr hacc

omit h in
theorem renamed_afterAll (name : String) {acc acc' : List Value} (hacc : ItemsRenamed r acc acc') :
    (afterAll name acc).Renamed r (afterAll name acc') := by
  unfold afterAll
  split
  · exact .array (List.rel_reverse hacc)
  · exact .array (List.rel_reverse hacc)
  · exact .number _
  · exact .bool _
  · exact .bool _
  · exact .undefined

theorem callEach (name : String) {f f' : Value} (hf : f.Renamed r f') {whole whole' : List Value}
    (hwhole : ItemsRenamed r whole whole') {items items' : List Value}
    (hitems : ItemsRenamed r items items') {acc acc' : List Value}
    (hacc : ItemsRenamed r acc acc') (i : Nat) :
    GivesRenamed r (self.callEach name f whole acc i items)
      (self.callEach name f' whole' acc' i items') := by
  induction hitems generalizing acc acc' i with
  | nil => exact .pure (renamed_afterAll name hacc)
  | cons hitem _ ih =>
    refine (h.callValue hf (.cons hitem (.cons (.number _) (.cons (.array hwhole) .nil)))).bind
      fun out out' hout => ?_
    have hstep := renamed_afterCall name i hitem hout hacc
    generalize afterCall name i _ out acc = step at hstep
    generalize afterCall name i _ out' acc' = step' at hstep
    cases hstep with
    | inl hv => exact .pure hv
    | inr hkept => exact ih hkept (i + 1)

theorem fold {f f' : Value} (hf : f.Renamed r f') {items items' : List Value}
    (hitems : ItemsRenamed r items items') {acc acc' : Value} (hacc : acc.Renamed r acc') (i : Nat) :
    GivesRenamed r (self.fold f acc i items) (self.fold f' acc' i items') := by
  induction hitems generalizing acc acc' i with
  | nil => exact .pure hacc
  | cons hitem _ ih =>
    exact (h.callValue hf (.cons hacc (.cons hitem (.cons (.number _) .nil)))).bind
      fun v v' hv => ih hv (i + 1)

theorem reduce {f f' : Value} (hf : f.Renamed r f') {items items' args args' : List Value}
    (hitems : ItemsRenamed r items items') (hargs : ItemsRenamed r args args') :
    GivesRenamed r (self.reduce f items args) (self.reduce f' items' args') := by
  unfold Interp.reduce
  obtain ⟨hinit, hinit'⟩ | ⟨v, v', hinit, hinit', hv⟩ :=
    exists_of_rel (forall₂_getElem? hargs 1)
  · rw [hinit, hinit']
    cases hitems with
    | nil => exact .fault _
    | cons hfirst hr => exact h.fold hf hr hfirst 1
  · rw [hinit, hinit']
    exact h.fold hf hitems hv 0

theorem comesAfter {comparator? comparator'? : Option Value}
    (hcomparator : ValueRenamed? r comparator? comparator'?) {v v' w w' : Value}
    (hv : v.Renamed r v') (hw : w.Renamed r w') :
    RunRenamed r Eq (self.comesAfter comparator? v w) (self.comesAfter comparator'? v' w') := by
  have byText : RunRenamed r Eq
      (do Run.tick; return compareText v.text w.text == .gt)
      (do Run.tick; return compareText v'.text w'.text == .gt) := by
    rw [hv.text_eq, hw.text_eq]
    exact RunAlike.tick.bind fun _ _ _ => .pure rfl
  cases hcomparator with
  | none => exact byText
  | some hf =>
    cases hf with
    | function id hparams hbody =>
      exact (h.call hparams hbody (.cons hv (.cons hw .nil))).bind fun x x' hx =>
        .pure (by rw [hx.toNumber_eq])
    | _ => exact byText

theorem insertSorted {comparator? comparator'? : Option Value}
    (hcomparator : ValueRenamed? r comparator? comparator'?) {item item' : Value}
    (hitem : item.Renamed r item') {sorted sorted' : List Value}
    (hsorted : ItemsRenamed r sorted sorted') {passed passed' : List Value}
    (hpassed : ItemsRenamed r passed passed') :
    RunRenamed r (ItemsRenamed r) (self.insertSorted comparator? item passed sorted)
      (self.insertSorted comparator'? item' passed' sorted') := by
  induction hsorted generalizing passed passed' with
  | nil => exact .pure (List.rel_append (List.rel_reverse hpassed) (.cons hitem .nil))
  | cons hlast hr ih =>
    refine (h.comesAfter hcomparator hlast hitem).bind fun after after' hafter => ?_
    obtain rfl := hafter
    split
    · exact ih (.cons hlast hpassed)
    · exact .pure (List.rel_append (List.rel_reverse hpassed) (.cons hitem (.cons hlast hr)))

theorem sortInto {comparator? comparator'? : Option Value}
    (hcomparator : ValueRenamed? r comparator? comparator'?) {items items' : List Value}
    (hitems : ItemsRenamed r items items') {sorted sorted' : List Value}
    (hsorted : ItemsRenamed r sorted sorted') :
    RunRenamed r (ItemsRenamed r) (self.sortInto comparator? sorted items)
      (self.sortInto comparator'? sorted' items') := by
  induction hitems generalizing sorted sorted' with
  | nil => exact .pure (List.rel_reverse hsorted)
  | cons hitem _ ih =>
    exact (h.insertSorted hcomparator hitem hsorted .nil).bind fun l l' hl => ih hl

theorem arrayMethod {items items' : List Value} (hitems : ItemsRenamed r items items')
    (name : String) {args args' : List Value} (hargs : ItemsRenamed r args args') :
    RunRenamed r (Reply.Renamed r) (self.arrayMethod items name args)
      (self.arrayMethod items' name args') := by
  have plain (v v' : Value) (hv : v.Renamed r v') :
      RunRenamed r (Reply.Renamed r) (pure (.plain v)) (pure (.plain v')) :=
    .pure ⟨hv, .none⟩
  unfold Interp.arrayMethod
  split
  · exact (h.sortInto (forall₂_head? hargs) hitems .nil).bind fun l l' hl =>
      .pure ⟨.array hl, .some (.array hl)⟩
  · split
    · exact (callback_renamed hargs).bind fun f f' hf => (h.reduce hf hitems hargs).bind plain
    · split
      · exact (callback_renamed hargs).bind fun f f' hf =>
          (h.callEach name hf hitems hitems .nil 0).bind plain
      · obtain ⟨hnone, hnone'⟩ | ⟨o, o', hsome, hsome', ho⟩ :=
          exists_of_rel (outcome_listMethod? hargs hitems name)
        · rw [hnone, hnone']
          exact .fault _
        · rw [hsome, hsome']
          exact .ofOutcome ho

theorem replacement {f f' : Value} (hf : f.Renamed r f') (s : String) (m : Pattern.Match) :
    RunRenamed r Eq (self.replacement f s m) (self.replacement f' s m) := by
  have hgroups : ItemsRenamed r (m.groups.map groupValue) (m.groups.map groupValue) := by
    refine List.forall₂_same.mpr fun v hv => ?_
    obtain ⟨group, -, rfl⟩ := List.mem_map.mp hv
    exact renamed_self_groupValue group
  refine (h.callValue hf (List.rel_append hgroups (.cons (.number _) (.cons (.string s) .nil)))).bind
    fun v v' hv => .pure ?_
  rw [hv.text_eq]

theorem replacements {f f' : Value} (hf : f.Renamed r f') (s : String)
    (acc : List (Pattern.Match × List Char)) (found : List Pattern.Match) :
    RunRenamed r Eq (self.replacements f s acc found) (self.replacements f' s acc found) := by
  induction found generalizing acc with
  | nil => exact .pure rfl
  | cons m ms ih =>
    exact (h.replacement hf s m).bind fun text text' htext => htext ▸ ih _

theorem replaceByCalls (s : String) (all : Bool) {f f' : Value} (hf : f.Renamed r f')
    {args args' : List Value} (hargs : ItemsRenamed r args args') :
    GivesRenamed r (self.replaceByCalls s all f args) (self.replaceByCalls s all f' args') := by
  have hneedle := needle_eq (rel_getD (forall₂_head? hargs) (.string ""))
  unfold Interp.replaceByCalls
  rw [hneedle]
  refine (RunRenamed.ofOutcome (P := Eq) (.of_self fun _ _ => rfl)).bind fun needle _ hsame => ?_
  obtain rfl := hsame
  refine (h.replacements hf s [] _).bind fun texts _ hsame => ?_
  obtain rfl := hsame
  exact .pure (.string _)

omit h in
theorem stringMethod_of_ne {name : String} (hreplace : name ≠ "replace")
    (hreplaceAll : name ≠ "replaceAll") (s : String) (args : List Value) :
    self.stringMethod s name args = Run.ofOutcome (textMethod s name args) := by
  unfold Interp.stringMethod
  split
  · exact absurd rfl hreplace
  · exact absurd rfl hreplaceAll
  · rfl

theorem stringMethod (s name : String) {args args' : List Value}
    (hargs : ItemsRenamed r args args') :
    GivesRenamed r (self.stringMethod s name args) (self.stringMethod s name args') := by
  have hplain := RunRenamed.ofOutcome (outcome_textMethod hargs s name)
  -- only these two tell a function from other arguments
  by_cases hname : name ≠ "replace" ∧ name ≠ "replaceAll"
  · rw [stringMethod_of_ne hname.1 hname.2, stringMethod_of_ne hname.1 hname.2]
    exact hplain
  have hsecond := renamed_argument hargs 1
  unfold Interp.stringMethod
  generalize argument 1 args = f at hsecond
  generalize argument 1 args' = f' at hsecond
  have hcalls (all : Bool) (hf : f.Renamed r f') := h.replaceByCalls s all hf hargs
  rw [Classical.not_and_iff_not_or_not, not_not, not_not] at hname
  obtain rfl | rfl := hname
  · cases hsecond with
    | function id hparams hbody => exact hcalls false (.function id hparams hbody)
    | _ => exact hplain
  · cases hsecond with
    | function id hparams hbody => exact hcalls true (.function id hparams hbody)
    | _ => exact hplain

omit h in
theorem objectMethod_of_ne {fields : List (String × Value)} {name : String} (args : List Value)
    (hne : ∀ id params body, Keyed.get? name fields ≠ some (.function id params body)) :
    self.objectMethod fields name args =
      if name = "hasOwnProperty" then return .bool (Keyed.has (textArgument 0 args) fields)
      else if name = "toString" then return .string (Value.object fields).text
      else Run.fault (.notFunction name) := by
  unfold Interp.objectMethod
  split
  · next id params body heq => exact absurd heq (hne id params body)
  · split
    · rfl
    · rfl
    · next hown htext => rw [if_neg hown, if_neg htext]

theorem objectMethod {fields fields' : List (String × Value)}
    (hfields : PropertiesRenamed r fields fields') (name : String) {args args' : List Value}
    (hargs : ItemsRenamed r args args') :
    GivesRenamed r (self.objectMethod fields name args)
      (self.objectMethod fields' name args') := by
  have hget := renamed_get? hfields name
  -- a property that is a function is one on both sides; without it, the method is one that all have
  have other (hne : ∀ id params body, Keyed.get? name fields ≠ some (.function id params body))
      (hne' : ∀ id params body, Keyed.get? name fields' ≠ some (.function id params body)) :
      GivesRenamed r (self.objectMethod fields name args)
        (self.objectMethod fields' name args') := by
    rw [objectMethod_of_ne args hne, objectMethod_of_ne args' hne', textArgument_eq hargs,
      has_eq hfields]
    split
    · exact .pure (.bool _)
    · split
      · exact .pure (.string _)
      · exact .fault _
  generalize hv : Keyed.get? name fields = v? at hget other
  generalize hv' : Keyed.get? name fields' = v'? at hget other
  cases hget with
  | none => exact other nofun nofun
  | some hrel =>
    cases hrel with
    | function id hparams hbody =>
      unfold Interp.objectMethod
      rw [hv, hv']
      exact h.call hparams hbody hargs
    | _ => exact other nofun nofun

theorem callMethod {target target' : Value} (htarget : target.Renamed r target') (name : String)
    {args args' : List Value} (hargs : ItemsRenamed r args args') :
    RunRenamed r (Reply.Renamed r) (self.callMethod target name args)
      (self.callMethod target' name args') := by
  have plain {v v' : Value} (hv : v.Renamed r v') : (Reply.plain v).Renamed r (.plain v') :=
    ⟨hv, .none⟩
  have other (v : Value) : RunRenamed r (Reply.Renamed r)
      (if (name = "toString" && !v.isNullish) = true then return Reply.plain (.string v.text)
        else Run.fault (.uncallable name v.text))
      (if (name = "toString" && !v.isNullish) = true then return Reply.plain (.string v.text)
        else Run.fault (.uncallable name v.text)) := by
    split
    · exact .pure (plain (.string _))
    · exact .fault _
  cases htarget with
  | string s => exact (h.stringMethod s name hargs).map fun _ _ => plain
  | array hitems => exact h.arrayMethod hitems name hargs
  | regex source flags =>
    exact (RunRenamed.ofOutcome (outcome_regexMethod hargs source flags name)).map fun _ _ => plain
  | number x =>
    exact (RunRenamed.ofOutcome (outcome_numberMethod hargs x name)).map fun _ _ => plain
  | object hfields => exact (h.objectMethod hfields name hargs).map fun _ _ => plain
  | function id hparams hbody =>
    unfold Interp.callMethod
    dsimp only
    split
    · exact (h.call hparams hbody (List.forall₂_drop 1 hargs)).bind fun v v' hv => .pure (plain hv)
    · exact other (.function id [] (.block []))
  | undefined => exact other .undefined
  | null => exact other .null
  | bool b => exact other (.bool b)

theorem callNamespace (space name : String) {args args' : List Value}
    (hargs : ItemsRenamed r args args') :
    GivesRenamed r (self.callNamespace space name args)
      (self.callNamespace space name args') := by
  have hfirst := renamed_argument hargs 0
  have hsecond := renamed_argument hargs 1
  unfold Interp.callNamespace
  rw [hfirst.text_eq]
  split
  · exact (RunAlike.sessionValue _).bind fun s s' hs => hs ▸ .pure (.string s)
  · split
    · exact (h.put _ hsecond).bind fun _ _ _ => .pure hsecond
    · split
      · exact .pure .undefined
      · exact .ofOutcome (outcome_namespaceFunction hargs space name)

/-! ### Calls -/

theorem evalMethodCall {object object' : Expr} (hobject : object.Renamed r object')
    {member member' : Name} (hmember : member.Renamed r member') {args args' : List Expr}
    (hargs : List.Forall₂ (Expr.Renamed r) args args') :
    GivesRenamed r (self.evalMethodCall object member args)
      (self.evalMethodCall object' member' args') := by
  refine (h.memberKey hmember).bind fun name _ hname => ?_
  obtain rfl := hname
  refine (namespaceOf?_renamed hobject).bind fun space? _ hspace => ?_
  obtain rfl := hspace
  split
  · exact (h.args hargs).bind fun vs vs' hvs => h.callNamespace _ name hvs
  · refine (h.eval hobject).bind fun target target' htarget => (h.args hargs).bind
      fun vs vs' hvs => (h.callMethod htarget name hvs).bind fun reply reply' hreply => ?_
    obtain ⟨hnone, hnone'⟩ | ⟨w, w', hsome, hsome', hw⟩ := exists_of_rel hreply.changed?
    · rw [hnone, hnone']
      exact .pure hreply.value
    · rw [hsome, hsome']
      exact (h.putBack hobject hw).bind fun _ _ _ => .pure hreply.value

theorem evalCall {callee callee' : Expr} (hcallee : callee.Renamed r callee')
    {args args' : List Expr} (hargs : List.Forall₂ (Expr.Renamed r) args args') :
    GivesRenamed r (self.evalCall callee args) (self.evalCall callee' args') := by
  have evaluated : GivesRenamed r
      (do let f ← self.eval callee; self.callValue f (← self.evalItems [] args))
      (do let f ← self.eval callee'; self.callValue f (← self.evalItems [] args')) :=
    (h.eval hcallee).bind fun f f' hf => (h.args hargs).bind fun vs vs' hvs => h.callValue hf hvs
  cases hcallee with
  | member hobject hmember => exact h.evalMethodCall hobject hmember hargs
  | name hab =>
    refine (RunRenamed.lookup? hab).bind fun v? v'? hv => ?_
    rw [rel_isNone hv]
    split
    · exact (h.args hargs).bind fun vs vs' hvs => .ofOutcome (outcome_globalFunction hvs hab)
    · exact evaluated
  | _ => exact evaluated

theorem evalConstruct {callee callee' : Expr} (hcallee : callee.Renamed r callee')
    {args args' : List Expr} (hargs : List.Forall₂ (Expr.Renamed r) args args') :
    GivesRenamed r (self.evalConstruct callee args) (self.evalConstruct callee' args') := by
  refine (h.args hargs).bind fun vs vs' hvs => ?_
  cases hcallee with
  | name hab => exact .ofOutcome (outcome_globalFunction hvs hab)
  | _ => exact .fault _

/-! ### Expressions -/

theorem evalUnary (op : UnaryOp) {e e' : Expr} (he : e.Renamed r e') :
    GivesRenamed r (self.evalUnary op e) (self.evalUnary op e') := by
  have applied (op : UnaryOp) : GivesRenamed r (do return op.apply (← self.eval e))
      (do return op.apply (← self.eval e')) :=
    (h.eval he).bind fun v v' hv => .pure (renamed_unary op hv)
  cases op with
  | typeOf =>
    cases he with
    | name hab =>
      refine (RunRenamed.lookup? hab).bind fun v? v'? hv => ?_
      rw [rel_isNone hv, kindOfName_eq hab]
      split
      · exact .pure (.string _)
      · refine (RunRenamed.valueOf hab).bind fun v v' hv => ?_
        rw [hv.kind_eq]
        exact .pure (.string _)
    | _ => exact applied .typeOf
  | delete =>
    cases he with
    | member hobject hname =>
      exact (h.deleteMember hobject hname).bind fun _ _ _ => .pure (.bool true)
    | _ => exact .pure (.bool true)
  | not => exact applied .not
  | minus => exact applied .minus
  | plus => exact applied .plus
  | complement => exact applied .complement
  | void => exact applied .void

theorem evalBinary (op : BinaryOp) {left left' right right' : Expr} (hleft : left.Renamed r left')
    (hright : right.Renamed r right') :
    GivesRenamed r (self.evalBinary op left right) (self.evalBinary op left' right') := by
  refine (h.eval hleft).bind fun v v' hv => ?_
  have applied (op : BinaryOp) : GivesRenamed r
      (do Run.ofOutcome (op.apply v (← self.eval right)))
      (do Run.ofOutcome (op.apply v' (← self.eval right'))) :=
    (h.eval hright).bind fun w w' hw => .ofOutcome (outcome_binary op hv hw)
  split
  · rw [hv.isTrue_eq]
    split
    · exact h.eval hright
    · exact .pure hv
  · rw [hv.isTrue_eq]
    split
    · exact .pure hv
    · exact h.eval hright
  · rw [hv.isNullish_eq]
    split
    · exact h.eval hright
    · exact .pure hv
  · exact applied _

theorem evalSequence {parts parts' : List Expr}
    (hparts : List.Forall₂ (Expr.Renamed r) parts parts') {last last' : Value}
    (hlast : last.Renamed r last') :
    GivesRenamed r (self.evalSequence last parts) (self.evalSequence last' parts') := by
  induction hparts generalizing last last' with
  | nil => exact .pure hlast
  | cons he _ ih => exact (h.eval he).bind fun v v' hv => ih hv

/-- **A machine that respects a renaming** on the parts of an expression does on the expression. -/
theorem evalBody {e e' : Expr} (he : e.Renamed r e') :
    GivesRenamed r (self.evalBody e) (self.evalBody e') := by
  cases he with
  | number x => exact .pure (.number x)
  | string s => exact .pure (.string s)
  | bool b => exact .pure (.bool b)
  | null => exact .pure .null
  | regex source flags => exact .pure (.regex source flags)
  | name hab => exact .valueOf hab
  | paren he => exact h.eval he
  | template texts hparts =>
    exact (h.evalTemplate "" texts hparts).bind fun s s' hs => hs ▸ .pure (.string s)
  | array hitems => exact (h.args hitems).bind fun vs vs' hvs => .pure (.array hvs)
  | object hfields => exact (h.evalFields hfields .nil).bind fun fs fs' hfs => .pure (.object hfs)
  | unary op he => exact h.evalUnary op he
  | update before up he => exact h.evalUpdate before up he
  | binary op ha hb => exact h.evalBinary op ha hb
  | assign op htarget he => exact h.evalAssign op htarget he
  | conditional htest hyes hno =>
    refine (h.eval htest).bind fun v v' hv => ?_
    rw [hv.isTrue_eq]
    split
    · exact h.eval hyes
    · exact h.eval hno
  | sequence hparts => exact h.evalSequence hparts .undefined
  | member hobject hname => exact h.evalMember hobject hname
  | call hcallee hargs => exact h.evalCall hcallee hargs
  | construct hcallee hargs => exact h.evalConstruct hcallee hargs
  | function hparams hbody => exact .newFunction hparams (.block hbody)
  | arrow hparams he => exact .newFunction hparams (.expr he)
  | otherLiteral | otherCall | spread | hole | otherPlace | other => exact .fault _

end Interp.Respects

end Scrape.Script
