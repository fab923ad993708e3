import Scrape.Proofs.Evaluate.Calls
import Scrape.Proofs.Evaluate.Suffix

/-!
# Evaluate — Put

Rules that begin with a directive which puts the result of another rule.  Where no script begins in
the rule that is put, the directive is in the first segment of the whole
(`exists_segments_directive`) and is carried out there before anything else
(`run_evalPlain_directive`).

Main statement (`inTurn_of_free`): the result and the session are those of the rule that is put, of
putting it, and of the rest, one after the other; but a script that the rest begins with works on
the empty text that the directive leaves, and not on the node.  Where a script begins in the rule
that is put, it cuts the directive in two, for scripts are told apart first (`not_inTurn`).
-/

namespace Scrape.Evaluate

open Scrape.Json (Bare IsKey field)
open Scrape.Rule (BeginsWithScript Free HasMark Scriptless Segment hasMark_append_cons_iff
  not_hasMark_of_not_mem segments segments_of_scriptless spans textSegment)
open Scrape.Text (isBlank trim trimEnd)

variable {options : Options} {mark key value rest : List Char}

/-! ### The directive is carried out -/

/-- A text with one brace that opens has no templates. -/
theorem hasSpan_of_count_le {s : List Char} (h : s.count '\x7b' ≤ 1) :
    (spans templateTags s).hasSpan = false := by
  have habsent : ¬ templateTags.opening <:+: s := by
    intro hinfix
    have hcount := hinfix.sublist.count_le '\x7b'
    have htwo : templateTags.opening.count '\x7b' = 2 := rfl
    omega
  rw [Rule.spans_of_absent habsent]
  rfl

theorem hasSpan_of_bare {s : List Char} (h : Bare s) : (spans templateTags s).hasSpan = false :=
  hasSpan_of_count_le (by rw [List.count_eq_zero.mpr (h.not_mem (by decide))]; exact Nat.zero_le 1)

theorem hasSpan_directive (hkey : IsKey key) (hvalue : Bare value) (hrest : Bare rest) :
    (spans templateTags (directive key value ++ rest)).hasSpan = false := by
  refine hasSpan_of_count_le ?_
  have hk := List.count_eq_zero.mpr (hkey.bare.not_mem (c := '\x7b') (by decide))
  have hv := List.count_eq_zero.mpr (hvalue.not_mem (c := '\x7b') (by decide))
  have hr := List.count_eq_zero.mpr (hrest.not_mem (c := '\x7b') (by decide))
  simp [directive, field, putMark, hk, hv, hr]

theorem trim_directive (key value rest : List Char) :
    trim (directive key value ++ rest) = directive key value ++ trimEnd rest := by
  have htrim : trim (directive key value) = directive key value := by
    simpa [directive, putMark] using Text.trim_cons_append (c := '@') (d := '\x7d')
      (by decide) (by decide) ("put:\x7b".toList ++ field key value)
  exact Text.trim_append htrim (by simp [directive]) rest

/-- What a text without directives that get selects does not change when its blanks are trimmed. -/
theorem selected_trimEnd (h : Bare rest) (options : Options) (n : Node) (session : Session) :
    selected options n session (trimEnd rest) =
      if (trim rest).isEmpty then "" else selected options n session (trim rest) := by
  have hgets : ∀ s, s <:+: rest → withGets session s = s := by
    intro s hs
    have habsent : ¬ getTags.opening <:+: s := fun hget =>
      h.not_mem (c := '\x7b') (by decide) ((hget.trans hs).subset (by decide))
    rw [withGets, Rule.fillSpans?, Rule.spans_of_absent habsent]
    rfl
  obtain ⟨before, hblank, hbefore⟩ := Text.exists_trimEnd_eq_append_trim rest
  have hmark : '#' ∉ before := fun hmem => absurd (hblank '#' hmem) (by decide)
  rw [selected, selected, hgets _ (Text.prefix_trimEnd rest).isInfix,
    hgets _ (Text.infix_trim rest), hbefore, splitSuffix_append hmark]
  dsimp only
  rw [Text.trim_append_of_blank hblank]
  cases htrim : (trim rest).isEmpty with
  | false => rfl
  | true =>
    rw [List.isEmpty_iff.mp htrim, splitSuffix_of_absent (by decide)]
    rfl

/-- A text without templates and directives selects. -/
theorem run_evalPlain_of_bare (h : Bare rest) (options : Options) (inner : Inner) (n : Node)
    (session : Session) :
    (evalPlain options inner n rest).run session =
      some (selected options n session (trimEnd rest), session) := by
  have htrim : Bare (trim rest) := h.of_infix (Text.infix_trim rest)
  have habsent : ¬ putMark ++ ['\x7b'] <:+: trim rest := fun hput =>
    htrim.not_mem (c := '\x7b') (by decide) (hput.subset (by simp))
  rw [evalPlain_of_not_hasSpan (hasSpan_of_bare htrim), selected_trimEnd h]
  split
  · rfl
  · rw [run_evalDirectives, puts_of_absent habsent]
    rfl

/-- **A directive is carried out** before the rule that follows it: the rule in it is evaluated and
its result put under the key. -/
theorem run_evalPlain_directive (hkey : IsKey key) (hvalue : Bare value) (hrest : Bare rest)
    (options : Options) (inner : Inner) (n : Node) (session : Session) :
    (evalPlain options inner n (directive key value ++ rest)).run session =
      ((inner n value).run session).bind fun r =>
        (evalPlain options inner n rest).run (r.2.put (String.ofList key) r.1) := by
  have hend : Bare (trimEnd rest) := hrest.of_infix (Text.prefix_trimEnd rest).isInfix
  have hne : (directive key value ++ trimEnd rest).isEmpty = false := by simp [directive]
  have hspan := hasSpan_directive hkey hvalue hend
  rw [← trim_directive] at hspan hne
  rw [evalPlain_of_not_hasSpan hspan, hne, if_neg Bool.false_ne_true, trim_directive]
  have hputs := puts_directive hkey hvalue hend
  have hpairs :
      (puts (directive key value ++ trimEnd rest)).pairs = [(String.ofList key, value)] := by
    rw [hputs]
    rfl
  have hrule : (puts (directive key value ++ trimEnd rest)).rule = trimEnd rest := by
    rw [hputs]
    rfl
  cases hinner : (inner n value).run session with
  | none =>
    rw [run_evalDirectives, hpairs, List.foldlM_cons, StateT.run_bind, putPair, StateT.run_bind,
      hinner]
    rfl
  | some r =>
    rw [run_evalDirectives_of_pair options hpairs hinner, hrule, Option.bind_some,
      run_evalPlain_of_bare hrest]

/-! ### The directive among the segments -/

/-- What stands in a directive before its rule holds no mark. -/
theorem not_hasMark_lead (hkey : IsKey key)
    (hmark : mark = Rule.scriptOpen ∨ mark = Rule.scriptTail) :
    ¬ HasMark mark (putMark ++ '\x7b' :: (key ++ [':', ' '])) := by
  rcases hmark with rfl | rfl
  · refine not_hasMark_of_not_mem (c := '<') (by decide) (by decide) ?_
    simp [putMark, hkey.not_mem (c := '<') (by decide)]
  · rw [hasMark_append_cons_iff (by decide) (by decide), not_or]
    refine ⟨by decide, not_hasMark_of_not_mem (c := '@') (by decide) (by decide) ?_⟩
    simp [hkey.not_mem (c := '@') (by decide)]

/-- No script begins in a directive but in its rule. -/
theorem hasMark_directive_append_iff (hkey : IsKey key)
    (hmark : mark = Rule.scriptOpen ∨ mark = Rule.scriptTail) :
    HasMark mark (directive key value ++ rest) ↔ HasMark mark value ∨ HasMark mark rest := by
  have hparts : directive key value ++ rest = putMark ++ '\x7b' :: (key ++ [':', ' ']) ++
      '"' :: (value ++ '"' :: ([] ++ '\x7d' :: rest)) := by
    simp [directive, field]
  have hlead := not_hasMark_lead hkey hmark
  have hquote : '"'.toLower ∉ Text.asciiLower mark := by rcases hmark with rfl | rfl <;> decide
  have hclose : '\x7d'.toLower ∉ Text.asciiLower mark := by
    rcases hmark with rfl | rfl <;> decide
  have hne : Text.asciiLower mark ≠ [] := by rcases hmark with rfl | rfl <;> decide
  have hnil : ¬ HasMark mark [] := Rule.not_hasMark_nil (by rcases hmark with rfl | rfl <;> decide)
  rw [hparts, hasMark_append_cons_iff hquote hne, hasMark_append_cons_iff hquote hne,
    hasMark_append_cons_iff hclose hne]
  simp only [hlead, hnil, false_or]

theorem free_directive_append (hkey : IsKey key) (hvalue : Free value) (hrest : Free rest) :
    Free (directive key value ++ rest) := by
  constructor
  · rw [hasMark_directive_append_iff hkey (.inl rfl), not_or]
    exact ⟨hvalue.opens, hrest.opens⟩
  · rw [hasMark_directive_append_iff hkey (.inr rfl), not_or]
    exact ⟨hvalue.tails, hrest.tails⟩

theorem textSegment_directive_append (key value rest : List Char) :
    textSegment (directive key value ++ rest) = [.rule (trim (directive key value ++ rest))] := by
  have hne : (trim (directive key value ++ rest)).isEmpty = false := by
    rw [trim_directive]
    simp [directive]
  simp [textSegment, hne]

/-- A rule cut before its first script: what comes before it, and the segments from there on. -/
structure CutAtScript (rule front : List Char) (after : List Segment) : Prop where
  isInfix : front <:+: rule
  script : after = [] ∨ ∃ source l, after = .script source :: l
  segments_eq : segments rule = textSegment front ++ after

theorem cutAtScript_nil {rule : List Char} (h : segments rule = textSegment rule) :
    CutAtScript rule rule [] :=
  ⟨List.infix_refl rule, .inl rfl, by rw [h, List.append_nil]⟩

/-- **The directive is in the first segment** of the rule that it begins, together with what comes
before the first script. -/
theorem exists_segments_directive (hkey : IsKey key)
    (h : Free value ∨ Scriptless (directive key value ++ rest) ∧ Scriptless rest) :
    ∃ front after, CutAtScript rest front after ∧
      segments (directive key value ++ rest) =
        .rule (trim (directive key value ++ front)) :: after := by
  rcases h with hvalue | ⟨hwhole, hrest⟩
  · obtain ⟨l, hl⟩ := Rule.exists_reading rest
    have hsegments := Rule.segments_eq_iff.mpr hl
    cases hl with
    | plain hfree =>
      refine ⟨rest, [], cutAtScript_nil hsegments, ?_⟩
      rw [← textSegment_directive_append]
      exact Rule.segments_eq_iff.mpr (.plain (free_directive_append hkey hvalue hfree))
    | @tail before mark source hbefore hmark =>
      refine ⟨before, [.script source],
        ⟨⟨[], mark ++ source, by simp⟩, .inr ⟨source, [], rfl⟩, hsegments⟩,
        Rule.segments_eq_iff.mpr ?_⟩
      have hread := Rule.Reading.tail source (free_directive_append hkey hvalue hbefore) hmark
      simpa [textSegment_directive_append] using hread
    | @unclosed before mark body hbefore hmark hbody =>
      refine ⟨_, [], cutAtScript_nil hsegments, ?_⟩
      rw [← textSegment_directive_append, Rule.segments_eq_iff]
      have hread := Rule.Reading.unclosed (free_directive_append hkey hvalue hbefore) hmark hbody
      simpa using hread
    | @span before opening source closing rest l hbefore hopening hsource hclosing hrest =>
      refine ⟨before, .script source :: l,
        ⟨⟨[], opening ++ (source ++ closing ++ rest), by simp⟩, .inr ⟨source, l, rfl⟩, hsegments⟩,
        Rule.segments_eq_iff.mpr ?_⟩
      have hread := Rule.Reading.span (free_directive_append hkey hvalue hbefore) hopening hsource
        hclosing hrest
      simpa [textSegment_directive_append] using hread
  · refine ⟨rest, [], cutAtScript_nil (segments_of_scriptless hrest), ?_⟩
    rw [segments_of_scriptless hwhole, textSegment_directive_append]

section

variable {inner : Inner} {n : Node}

/-- A rule is evaluated up to its first script, and on from there; what comes before the script may
be blank, and is the empty text then. -/
theorem evalFrom_eq_bind {front rest : List Char} {after : List Segment}
    (h : CutAtScript rest front after) {before? : Option Script.Value}
    (hscript : BeginsWithScript rest → before? = some (.string ""))
    (hrule : ¬ BeginsWithScript rest → before? = none) :
    evalFrom options inner n before? rest = (do
      let value ← evalPlain options inner n front
      let value? ← after.foldlM (segmentStep options inner n) (some (.string value))
      return (value?.getD .undefined).output) := by
  obtain ⟨-, hafter, hsegments⟩ := h
  rw [evalFrom, hsegments]
  cases hblank : (trim front).isEmpty with
  | false =>
    have htext : textSegment front = [.rule (trim front)] := by simp [textSegment, hblank]
    have hnot : ¬ BeginsWithScript rest := by
      rintro ⟨source, l, hl⟩
      rw [hsegments, htext] at hl
      cases hl
    rw [hrule hnot, htext, List.singleton_append, List.foldlM_cons, segmentStep_rule, nodeAfter,
      evalPlain_trim]
    simp only [bind_assoc, pure_bind]
  | true =>
    have htext : textSegment front = [] := by simp [textSegment, hblank]
    have hempty : evalPlain options inner n front = pure "" := by
      rw [← evalPlain_trim, List.isEmpty_iff.mp hblank]
      rfl
    rw [htext, List.nil_append] at hsegments
    rw [htext, List.nil_append, hempty, pure_bind]
    rcases hafter with rfl | ⟨source, l, rfl⟩
    · have hnot : ¬ BeginsWithScript rest := by
        rintro ⟨source, l, hl⟩
        rw [hsegments] at hl
        cases hl
      rw [hrule hnot]
      rfl
    · rw [hscript ⟨source, l, hsegments⟩]

/-- **A rule that begins with a directive**: the rule in the directive is evaluated and its result
put under the key; then the rest is evaluated, on the empty text if it begins with a script. -/
theorem run_evalFrom_directive {key value rest : List Char} (hkey : IsKey key) (hvalue : Bare value)
    (hrest : Bare rest)
    (h : Free value ∨ Scriptless (directive key value ++ rest) ∧ Scriptless rest)
    {before? : Option Script.Value} (hscript : BeginsWithScript rest → before? = some (.string ""))
    (hrule : ¬ BeginsWithScript rest → before? = none) (session : Session) :
    (evalFrom options inner n none (directive key value ++ rest)).run session =
      ((inner n value).run session).bind fun r =>
        (evalFrom options inner n before? rest).run (r.2.put (String.ofList key) r.1) := by
  obtain ⟨front, after, hcut, hwhole⟩ := exists_segments_directive hkey h
  have hbare : Bare front := hrest.of_infix hcut.isInfix
  rw [evalFrom_eq_bind hcut hscript hrule, evalFrom, hwhole, List.foldlM_cons,
    segmentStep_rule, nodeAfter, evalPlain_trim]
  simp only [bind_assoc, pure_bind]
  rw [StateT.run_bind, run_evalPlain_directive hkey hvalue hbare]
  cases (inner n value).run session with
  | none => rfl
  | some r => rw [Option.bind_some, Option.bind_some, StateT.run_bind]

end

/-! ### The result -/

/-- The task has this result, and leaves this session. -/
def Task.Returns (options : Options) (t : Task) (r : String × Session) : Prop :=
  ∃ depth, t.run? options depth = some r

/-- The task has this result when its rule is evaluated on a value. -/
def Task.ReturnsFrom (options : Options) (before? : Option Script.Value) (t : Task)
    (r : String × Session) : Prop :=
  ∃ depth, (evalFrom options (evalText options depth) t.node before? t.rule).run t.session = some r

section

variable {options : Options} {t : Task} {r : String × Session}

theorem run?_succ_eq (options : Options) (depth : Nat) (t : Task) :
    t.run? options (depth + 1) =
      (evalFrom options (evalText options depth) t.node none t.rule).run t.session := by
  rw [Task.run?, evalText, evalRule_eq_evalFrom]

theorem returnsFrom_none_iff : t.ReturnsFrom options none r ↔ t.Returns options r := by
  constructor
  · rintro ⟨depth, h⟩
    exact ⟨depth + 1, (run?_succ_eq options depth t).trans h⟩
  · rintro ⟨depth, h⟩
    cases depth with
    | zero => cases h
    | succ depth => exact ⟨depth, (run?_succ_eq options depth t).symm.trans h⟩

theorem evalFrom_mono (options : Options) (n : Node) {depth more : Nat} (hle : depth ≤ more)
    (before? : Option Script.Value) (rule : List Char) :
    Extends (evalFrom options (evalText options depth) n before? rule)
      (evalFrom options (evalText options more) n before? rule) :=
  (Extends.foldlM (segmentStep_mono options n hle) _ _).bind fun _ => .refl _

variable {session : Session} {n : Node} {key value rest : List Char}

theorem returns_directive_iff (hkey : IsKey key) (hvalue : Bare value) (hrest : Bare rest)
    (h : Free value ∨ Scriptless (directive key value ++ rest) ∧ Scriptless rest)
    {before? : Option Script.Value} (hscript : BeginsWithScript rest → before? = some (.string ""))
    (hrule : ¬ BeginsWithScript rest → before? = none) :
    Task.Returns options ⟨session, n, directive key value ++ rest⟩ r ↔
      ∃ text session', Task.Returns options ⟨session, n, value⟩ (text, session') ∧
        Task.ReturnsFrom options before? ⟨session'.put (String.ofList key) text, n, rest⟩ r := by
  rw [← returnsFrom_none_iff]
  have hrun (depth : Nat) :
      (evalFrom options (evalText options depth) n none (directive key value ++ rest)).run session =
        ((evalText options depth n value).run session).bind fun r =>
          (evalFrom options (evalText options depth) n before? rest).run
            (r.2.put (String.ofList key) r.1) :=
    run_evalFrom_directive hkey hvalue hrest h hscript hrule session
  constructor
  · rintro ⟨depth, hr⟩
    rw [hrun, Option.bind_eq_some_iff] at hr
    obtain ⟨⟨text, session'⟩, hinner, hr⟩ := hr
    exact ⟨text, session', ⟨depth, hinner⟩, depth, hr⟩
  · rintro ⟨text, session', ⟨depth, hinner⟩, more, hr⟩
    refine ⟨max depth more, ?_⟩
    rw [hrun, Option.bind_eq_some_iff]
    exact ⟨(text, session'),
      evalText_mono options (Nat.le_max_left depth more) n value session _ hinner,
      evalFrom_mono options n (Nat.le_max_right depth more) before? rest _ r hr⟩

/-- A rule that begins with a directive is evaluated in turn: the rule in the directive, whose
result is put under the key, and then the rest. -/
def InTurn (options : Options) (session : Session) (n : Node) (key value rest : List Char) : Prop :=
  ∀ r, Task.Returns options ⟨session, n, directive key value ++ rest⟩ r ↔
    ∃ text session', Task.Returns options ⟨session, n, value⟩ (text, session') ∧
      Task.Returns options ⟨session'.put (String.ofList key) text, n, rest⟩ r

/-- **A put value is a rule of its own**: a rule that begins with a directive is evaluated in turn;
but a script that the rest begins with works on the empty text. -/
theorem inTurn_of_free (hkey : IsKey key) (hvalue : Bare value) (hrest : Bare rest)
    (h : Free value ∨ Scriptless (directive key value ++ rest) ∧ Scriptless rest)
    (options : Options) (session : Session) (n : Node) :
    (¬ BeginsWithScript rest → InTurn options session n key value rest) ∧
    (BeginsWithScript rest → ∀ r,
      Task.Returns options ⟨session, n, directive key value ++ rest⟩ r ↔
        ∃ text session', Task.Returns options ⟨session, n, value⟩ (text, session') ∧
          Task.ReturnsFrom options (some (.string ""))
            ⟨session'.put (String.ofList key) text, n, rest⟩ r) := by
  constructor
  · intro hnot r
    simp only [← returnsFrom_none_iff (t := ⟨Session.put _ _ _, _, _⟩)]
    exact returns_directive_iff hkey hvalue hrest h (fun hyes => absurd hyes hnot) fun _ => rfl
  · intro hyes r
    exact returns_directive_iff hkey hvalue hrest h (fun _ => rfl) fun hnot => absurd hyes hnot

end

/-! ### Where a directive is not evaluated in turn -/

theorem Task.returns_of_map {options : Options} {t : Task} {text : String}
    {vars : List (String × String)} (depth : Nat)
    (h : (t.run? options depth).map (fun r => (r.1, r.2.vars)) = some (text, vars)) :
    t.Returns options (text, ⟨vars⟩) := by
  obtain ⟨r, hr, heq⟩ := Option.map_eq_some_iff.mp h
  obtain ⟨rfl, rfl⟩ := Prod.mk.inj heq
  exact ⟨depth, hr⟩

theorem Task.Returns.unique {options : Options} {t : Task} {r r' : String × Session}
    (h : t.Returns options r) (h' : t.Returns options r') : r = r' := by
  obtain ⟨depth, hr⟩ := h
  obtain ⟨more, hr'⟩ := h'
  have hr := evalText_mono options (Nat.le_max_left depth more) t.node t.rule t.session r hr
  have hr' := evalText_mono options (Nat.le_max_right depth more) t.node t.rule t.session r' hr'
  exact Option.some.inj (hr.symm.trans hr')

/-- A document with two fields. -/
def twoFields : Node := .json (.object [("a", .string "x"), ("b", .string "y")]) 0

theorem returns_fields :
    Task.Returns {} ⟨Session.empty, twoFields, "$.a".toList⟩ ("x", ⟨[]⟩) ∧
      Task.Returns {} ⟨⟨[("k", "x")]⟩, twoFields, "$.b".toList⟩ ("y", ⟨[("k", "x")]⟩) :=
  ⟨Task.returns_of_map 1 (by decide +kernel), Task.returns_of_map 1 (by decide +kernel)⟩

/-- The value of a field is put, and that of another is the result. -/
theorem inTurn_twoFields :
    Task.Returns {} ⟨Session.empty, twoFields, directive "k".toList "$.a".toList ++ "$.b".toList⟩
      ("y", ⟨[("k", "x")]⟩) := by
  have hkey : IsKey "k".toList := ⟨by decide, by simp; decide, by simp; decide⟩
  have hfree : Free "$.a".toList := by decide
  have hnot : ¬ BeginsWithScript "$.b".toList :=
    (Rule.scriptless_of_not_hasScript (by decide)).not_beginsWithScript
  have hturn := (inTurn_of_free hkey (by decide) (by decide) (.inl hfree) {} Session.empty
    twoFields).1 hnot
  exact (hturn _).mpr ⟨"x", ⟨[]⟩, returns_fields⟩

theorem not_inTurn_of_ne {options : Options} {session session' : Session} {n : Node}
    {key value rest : List Char} {text : String} {r r' : String × Session}
    (hvalue : Task.Returns options ⟨session, n, value⟩ (text, session'))
    (hrest : Task.Returns options ⟨session'.put (String.ofList key) text, n, rest⟩ r')
    (hwhole : Task.Returns options ⟨session, n, directive key value ++ rest⟩ r) (hne : r ≠ r') :
    ¬ InTurn options session n key value rest := fun h =>
  hne (hwhole.unique ((h r').mpr ⟨text, session', hvalue, hrest⟩))

/-- **Where it is not**: a script in the rule that is put cuts the directive in two, so that nothing
is put.  A script that the rest begins with works on the empty text and not on the node.  A
directive without a key puts nothing. -/
theorem not_inTurn :
    (Bare "$.a@js:result".toList ∧
      ¬ InTurn {} Session.empty twoFields "k".toList "$.a@js:result".toList "$.b".toList) ∧
    (Bare "@js:result".toList ∧
      ¬ InTurn {} Session.empty twoFields "k".toList "$.a".toList "@js:result".toList) ∧
    ¬ InTurn {} Session.empty twoFields [] "$.a".toList "$.b".toList := by
  refine ⟨⟨by decide, ?_⟩, ⟨by decide, ?_⟩, ?_⟩
  · have hvalue : Task.Returns {} ⟨Session.empty, twoFields, "$.a@js:result".toList⟩ ("x", ⟨[]⟩) :=
      Task.returns_of_map 1 (by decide +kernel)
    have hwhole : Task.Returns {} ⟨Session.empty, twoFields,
        directive "k".toList "$.a@js:result".toList ++ "$.b".toList⟩ ("", ⟨[]⟩) :=
      Task.returns_of_map 2 (by decide +kernel)
    exact not_inTurn_of_ne hvalue returns_fields.2 hwhole (by simp)
  · have hrest : Task.Returns {} ⟨⟨[("k", "x")]⟩, twoFields, "@js:result".toList⟩
        ("\x7b\"a\":\"x\",\"b\":\"y\"\x7d", ⟨[("k", "x")]⟩) :=
      Task.returns_of_map 1 (by decide +kernel)
    have hwhole : Task.Returns {} ⟨Session.empty, twoFields,
        directive "k".toList "$.a".toList ++ "@js:result".toList⟩ ("", ⟨[("k", "x")]⟩) :=
      Task.returns_of_map 2 (by decide +kernel)
    exact not_inTurn_of_ne returns_fields.1 hrest hwhole (by simp)
  · have hwhole : Task.Returns {} ⟨Session.empty, twoFields,
        directive [] "$.a".toList ++ "$.b".toList⟩ ("y", ⟨[]⟩) :=
      Task.returns_of_map 2 (by decide +kernel)
    have hrest : Task.Returns {} ⟨⟨[("", "x")]⟩, twoFields, "$.b".toList⟩ ("y", ⟨[("", "x")]⟩) :=
      Task.returns_of_map 1 (by decide +kernel)
    exact not_inTurn_of_ne returns_fields.1 hrest hwhole (by simp)

end Scrape.Evaluate
