import Scrape.Proofs.Script.Bracket.Expr
import Scrape.Script.Reader.Stmt

/-!
# Script — Bracket — Statements

What the readers of statements give is nested no deeper than the measure has it, and so are the
statements of a whole source (`nesting_of_readProgramWith?`).
-/

namespace Scrape.Script

open Nesting Read

variable {bound : Nat} {marks : List Char} {g : Grammar}

/-- A declaration with `let` starts at that word. -/
theorem ensures_letDeclares {source : Source} : Ensures Grammar.letDeclares source fun b s =>
    s = source ∧ (b = true → source.token = .name "let") := by
  refine Ensures.seesWord ?_
  split
  · exact .pure ⟨rfl, fun h => absurd h Bool.false_ne_true⟩
  · next hlet =>
    have ht : source.token = .name "let" := by simpa using hlet
    refine Ensures.later? ?_
    split
    · exact .pure ⟨rfl, fun _ => ht⟩
    · exact .pure ⟨rfl, fun _ => ht⟩
    · exact .pure ⟨rfl, fun _ => ht⟩

theorem ensures_seesList {α : Type} {source : Source} {f : Bool → Read α} {Q : α → Source → Prop}
    (h : ∀ b, Ensures (f b) source Q) : Ensures (Grammar.seesList >>= f) source Q := by
  rw [Grammar.seesList, bind_assoc]
  refine Ensures.seesWord ?_
  rw [bind_assoc]
  exact Ensures.seesWord (h _)

theorem restores_label : Restores bound marks Grammar.label fun _ => 0 := by
  intro source hat
  refine Ensures.get ?_
  split
  · exact .pure ⟨hat, hat.length_le⟩
  refine Ensures.token ?_
  split
  · next ht =>
    split
    · exact (hat.next (ht ▸ trivial)).mono fun _ s hat => ⟨hat, hat.length_le⟩
    · exact .pure ⟨hat, hat.length_le⟩
  · exact .pure ⟨hat, hat.length_le⟩

namespace Nests

/-! ### Declarations -/

theorem declarator (h : Nests bound g) (ctx : Context) (inLoop : Bool) :
    Restores bound marks (g.declarator ctx inLoop) Declarator.nesting := by
  intro source hat
  refine (h.binding ctx marks).bind hat fun target s hat htarget => ?_
  have halone : Ensures (pure (.mk target none) : Read Declarator) s
      (Fits bound marks Declarator.nesting) :=
    .pure ⟨hat, by simpa [Declarator.nesting, exprNesting?] using htarget⟩
  refine Ensures.seesWord (Ensures.seesWord ?_)
  split
  · exact halone
  refine hat.accepts (by decide) fun b s hat => ?_
  split
  · refine (h.assign ctx marks).bind hat fun e s hat he => .pure ⟨hat, ?_⟩
    simp only [Declarator.nesting, exprNesting?]
    omega
  · split
    · exact .pure ⟨hat, hat.length_le⟩
    · exact .failure

theorem declarators (h : Nests bound g) (ctx : Context) (inLoop : Bool) :
    Restores bound marks (g.declarators ctx inLoop) (deepest Declarator.nesting) := by
  intro source hat
  refine (h.declarator ctx inLoop).bind hat fun first s hat hfirst => ?_
  refine Ensures.loop (I := Fits bound marks (deepest Declarator.nesting)) ?_ ?_
  · exact ⟨hat, by simpa using hfirst⟩
  rintro ds s ⟨hat, hds⟩
  refine hat.accepts (by decide) fun b s hat => ?_
  split
  · refine (h.declarator ctx inLoop).bind hat fun d s hat hd => .pure ⟨hat, ?_⟩
    rw [deepest_cons]
    omega
  · exact .pure ⟨hat, by simpa using hds⟩

theorem vars (h : Nests bound g) (ctx : Context) :
    Restores bound marks (g.vars ctx) Stmt.nesting := by
  intro source hat
  refine (h.declarators ctx false).bind hat fun ds s hat hds => ?_
  refine restores_endStatement.bind hat fun _ s hat _ => .pure ⟨hat, ?_⟩
  simpa using hds

theorem functionDecl (h : Nests bound g) (async : Bool) :
    Restores bound marks (g.functionDecl async) Stmt.nesting := by
  intro source hat
  refine hat.accepts (by decide) fun generator s hat => ?_
  refine restores_readName.bind hat fun name s hat _ => ?_
  refine (h.function generator async).bind hat fun f s hat hf => .pure ⟨hat, ?_⟩
  simpa [Stmt.nesting] using hf

/-! ### Heads -/

theorem condition (h : Nests bound g) (ctx : Context) :
    Restores bound marks (g.condition ctx) Expr.nesting := by
  intro source hat
  refine hat.expect_open .paren fun s hat' => ?_
  refine (h.expr ctx).bind hat' fun e s hat' he => ?_
  refine hat'.expect_close hat.code .paren fun s hat => .pure ⟨hat, ?_⟩
  rw [List.length_cons] at he
  omega

theorem exprBefore (h : Nests bound g) (ctx : Context) {p : String} (hp : p ∉ brackets) :
    Restores bound marks (g.exprBefore ctx p) exprNesting? := by
  intro source hat
  refine hat.accepts hp fun b s hat => ?_
  split
  · exact .pure ⟨hat, hat.length_le⟩
  · refine (h.expr ctx).bind hat fun e s hat he => ?_
    exact hat.expect hp fun s hat => .pure ⟨hat, he⟩

theorem exprBefore_close (h : Nests bound g) (ctx : Context) {p : String} {c d : Char}
    {source : Source} (hp : Closing p d) (hcode : Code marks) (hat : At bound (c :: marks) source) :
    Ensures (g.exprBefore ctx p) source (Fits bound marks exprNesting?) := by
  refine hat.accepts_close hcode hp (fun s hat => .pure ⟨hat, hat.length_le⟩) ?_
  refine (h.expr ctx).bind hat fun e s hat he => ?_
  refine hat.expect_close hcode hp fun s hat => .pure ⟨hat, ?_⟩
  rw [List.length_cons] at he
  simp only [exprNesting?]
  omega

theorem countFrom (h : Nests bound g) (ctx : Context) {start : Option Stmt} {c : Char}
    {source : Source} (hcode : Code marks) (hat : At bound (c :: marks) source)
    (hstart : marks.length + stmtNesting? start ≤ bound) :
    Ensures (g.countFrom ctx start) source (Fits bound marks Stmt.nesting) := by
  refine hat.expect (by decide) fun s hat => ?_
  refine (h.exprBefore ctx (by decide)).bind hat fun test s hat htest => ?_
  refine (h.exprBefore_close ctx .paren hcode hat).bind fun update s hs => ?_
  refine (h.stmt ctx false marks).bind hs.stands fun body s hat hbody => .pure ⟨hat, ?_⟩
  have hupdate := hs.room
  rw [List.length_cons] at htest
  simp only [Stmt.nesting]
  omega

theorem eachFrom (h : Nests bound g) (ctx : Context) (declares : Bool) {target : Binding} {c : Char}
    {source : Source} (hcode : Code marks) (hat : At bound (c :: marks) source)
    (htarget : marks.length + target.nesting ≤ bound) :
    Ensures (g.eachFrom ctx declares target) source (Fits bound marks Stmt.nesting) := by
  refine hat.acceptsWord fun b s hat => ?_
  split
  · refine (h.assign ctx _).bind hat fun list s hat hlist => ?_
    refine hat.expect_close hcode .paren fun s hat => ?_
    refine (h.stmt ctx false marks).bind hat fun body s hat hbody => .pure ⟨hat, ?_⟩
    rw [List.length_cons] at hlist
    simp only [Stmt.nesting]
    omega
  · refine hat.expectWord fun s hat => ?_
    refine (h.expr ctx).bind hat fun object s hat hobject => ?_
    refine hat.expect_close hcode .paren fun s hat => ?_
    refine (h.stmt ctx false marks).bind hat fun body s hat hbody => .pure ⟨hat, ?_⟩
    rw [List.length_cons] at hobject
    simp only [Stmt.nesting]
    omega

theorem forLoop (h : Nests bound g) (ctx : Context) :
    Restores bound marks (g.forLoop ctx) Stmt.nesting := by
  intro source hat
  have hcode := hat.code
  refine hat.acceptsWord fun _ s hat => ?_
  refine hat.expect_open .paren fun s hat => Ensures.seesWord (Ensures.seesWord ?_)
  refine ensures_letDeclares.bind fun b s' hlet => ?_
  obtain ⟨rfl, hlet⟩ := hlet
  split
  · next hword =>
    have ht : s'.token.Mute := by
      simp only [Bool.or_eq_true, beq_iff_eq] at hword
      rcases hword with (ht | ht) | hb
      · exact ht ▸ trivial
      · exact ht ▸ trivial
      · exact hlet hb ▸ trivial
    refine (hat.next ht).bind fun _ s hat => ?_
    refine (h.declarators _ true).bind hat fun ds s hat hds => ensures_seesList fun b => ?_
    rw [List.length_cons] at hds
    split
    · split
      · refine h.eachFrom ctx true hcode hat ?_
        simp only [deepest_cons, Declarator.nesting] at hds
        omega
      · exact .failure
    · refine h.countFrom ctx hcode hat ?_
      simp only [stmtNesting?, Stmt.nesting, declaratorsNesting_eq]
      omega
  refine Ensures.sees ?_
  split
  · refine h.countFrom ctx hcode hat ?_
    exact Nat.le_of_succ_le hat.length_le
  refine (h.expr _).bind hat fun e s hat he => ensures_seesList fun b => ?_
  rw [List.length_cons] at he
  split
  · refine Ensures.lift fun target htarget => h.eachFrom ctx false hcode hat ?_
    have := nesting_of_loopTarget? htarget
    omega
  · refine h.countFrom ctx hcode hat ?_
    simp only [stmtNesting?, Stmt.nesting]
    omega

/-! ### Statements -/

theorem caseBody (h : Nests bound g) (ctx : Context) :
    Restores bound marks (g.caseBody ctx) (deepest Stmt.nesting) := by
  intro source hat
  refine Ensures.loop (I := Fits bound marks (deepest Stmt.nesting)) ⟨hat, hat.length_le⟩ ?_
  rintro body s ⟨hat, hbody⟩
  refine Ensures.seesWord (Ensures.seesWord (Ensures.sees ?_))
  split
  · exact .pure ⟨hat, by simpa using hbody⟩
  · refine (h.stmt ctx true marks).bind hat fun st s hat hst => .pure ⟨hat, ?_⟩
    rw [deepest_cons]
    omega

theorem switchCase (h : Nests bound g) (ctx : Context) :
    Restores bound marks (g.switchCase ctx) Case.nesting := by
  intro source hat
  have hbody : ∀ {test s}, At bound marks s → marks.length + exprNesting? test ≤ bound →
      Ensures (do
        expect ":"
        return .mk test (← g.caseBody ctx)) s (Fits bound marks Case.nesting) := by
    intro test s hat htest
    refine hat.expect (by decide) fun s hat => ?_
    refine (h.caseBody ctx).bind hat fun body s hat hbody => .pure ⟨hat, ?_⟩
    simp only [Case.nesting, stmtsNesting_eq]
    omega
  refine hat.acceptsWord fun b s hat => ?_
  dsimp only
  split
  · exact hbody hat hat.length_le
  · refine hat.expectWord fun s hat => ?_
    exact ((h.expr ctx).map some fun _ => rfl).bind hat fun test s hat htest => hbody hat htest

theorem someBlock (h : Nests bound g) (ctx : Context) :
    Restores bound marks (some <$> g.block ctx) blockNesting? :=
  (h.block ctx).map some fun body => by rw [blockNesting?, stmtsNesting_eq]

theorem attempt (h : Nests bound g) (ctx : Context) :
    Restores bound marks (g.attempt ctx) Stmt.nesting := by
  intro source hat
  refine (h.block ctx).bind hat fun body s hat hbody => ?_
  have hlast : ∀ {param handler s}, At bound marks s →
      marks.length + bindingNesting? param ≤ bound →
      marks.length + blockNesting? handler ≤ bound → Ensures (do
        let finalizer ← if ← acceptsWord "finally" then some <$> g.block ctx else pure none
        return .attempt body param handler finalizer) s (Fits bound marks Stmt.nesting) := by
    intro param handler s hat hparam hhandler
    have hgiven : ∀ {finalizer s}, At bound marks s →
        marks.length + blockNesting? finalizer ≤ bound →
        Ensures (pure (.attempt body param handler finalizer) : Read Stmt) s
          (Fits bound marks Stmt.nesting) := by
      intro finalizer s hat hfinalizer
      refine .pure ⟨hat, ?_⟩
      simp only [Stmt.nesting, stmtsNesting_eq]
      omega
    refine hat.acceptsWord fun b s hat => ?_
    dsimp only
    split
    · exact (h.someBlock ctx).bind hat fun _ s hat hblock => hgiven hat hblock
    · exact hgiven hat hat.length_le
  have hhandled : ∀ {param s}, At bound marks s → marks.length + bindingNesting? param ≤ bound →
      Ensures (do
        let handler ← g.block ctx
        let finalizer ← if ← acceptsWord "finally" then some <$> g.block ctx else pure none
        return .attempt body param (some handler) finalizer) s (Fits bound marks Stmt.nesting) := by
    intro param s hat hparam
    refine (h.block ctx).bind hat fun handler s hat hhandler => hlast hat hparam ?_
    simpa [blockNesting?] using hhandler
  refine hat.acceptsWord fun b s hat => ?_
  dsimp only
  split
  · refine hat.accepts_open .paren (fun s hat' => ?_) ?_
    · refine (h.binding ctx _).bind hat' fun param s hat' hparam => ?_
      refine hat'.expect_close hat.code .paren fun s hat => hhandled hat ?_
      rw [List.length_cons] at hparam
      simp only [bindingNesting?]
      omega
    · exact hhandled hat hat.length_le
  · exact hlast hat hat.length_le hat.length_le

theorem exprStmt (h : Nests bound g) (ctx : Context) :
    Restores bound marks (g.exprStmt ctx) Stmt.nesting := by
  intro source hat
  refine (h.expr ctx).bind hat fun e s hat he => ?_
  have hlast : ∀ {s}, At bound marks s →
      Ensures (do endStatement; return .expr e) s (Fits bound marks Stmt.nesting) :=
    fun hat => restores_endStatement.bind hat fun _ s hat _ => .pure ⟨hat, he⟩
  dsimp only
  split
  · refine hat.accepts (by decide) fun b s hat => ?_
    split
    · exact (h.stmt ctx false marks).bind hat fun _ s hat _ => .pure ⟨hat, hat.length_le⟩
    · exact hlast hat
  · exact hlast hat

theorem wordStmt (h : Nests bound g) (ctx : Context) (decls : Bool) {w : String} {source : Source}
    (hat : At bound marks source) (ht : source.token = .name w) :
    Ensures (g.wordStmt ctx decls w) source (Fits bound marks Stmt.nesting) := by
  have hnext {r : Read Stmt} (hr : Restores bound marks r Stmt.nesting) :
      Ensures (do next; r) source (Fits bound marks Stmt.nesting) :=
    (hat.next (ht ▸ trivial)).bind fun _ => hr
  unfold Grammar.wordStmt
  split
  -- `if`
  · refine hnext fun s hat => ?_
    refine (h.condition ctx).bind hat fun test s hat htest => ?_
    refine (h.stmt ctx false marks).bind hat fun yes s hat hyes => ?_
    have hbranch : ∀ {no s}, At bound marks s → marks.length + stmtNesting? no ≤ bound →
        Ensures (pure (.branch test yes no) : Read Stmt) s (Fits bound marks Stmt.nesting) := by
      intro no s hat hno
      refine .pure ⟨hat, ?_⟩
      simp only [Stmt.nesting]
      omega
    refine hat.acceptsWord fun b s hat => ?_
    dsimp only
    split
    · exact ((h.stmt ctx false marks).map some fun _ => rfl).bind hat fun no s hat hno =>
        hbranch hat hno
    · exact hbranch hat hat.length_le
  -- `return`
  · refine hnext fun s hat => ?_
    refine Ensures.get (Ensures.sees (Ensures.sees (Ensures.token ?_)))
    split
    · exact restores_endStatement.bind hat fun _ s hat _ => .pure ⟨hat, hat.length_le⟩
    · refine (h.expr ctx).bind hat fun e s hat he => ?_
      exact restores_endStatement.bind hat fun _ s hat _ => .pure ⟨hat, he⟩
  -- `break`
  · refine hnext fun s hat => ?_
    refine restores_label.bind hat fun _ s hat _ => ?_
    exact restores_endStatement.bind hat fun _ s hat _ => .pure ⟨hat, hat.length_le⟩
  -- `continue`
  · refine hnext fun s hat => ?_
    refine restores_label.bind hat fun _ s hat _ => ?_
    exact restores_endStatement.bind hat fun _ s hat _ => .pure ⟨hat, hat.length_le⟩
  -- `while`
  · refine hnext fun s hat => ?_
    refine (h.condition ctx).bind hat fun test s hat htest => ?_
    refine (h.stmt ctx false marks).bind hat fun body s hat hbody => .pure ⟨hat, ?_⟩
    simp only [Stmt.nesting]
    omega
  -- `do`
  · refine hnext fun s hat => ?_
    refine (h.stmt ctx false marks).bind hat fun body s hat hbody => ?_
    refine hat.expectWord fun s hat => ?_
    refine (h.condition ctx).bind hat fun test s hat htest => ?_
    refine hat.accepts (by decide) fun b s hat => .pure ⟨hat, ?_⟩
    simp only [Stmt.nesting]
    omega
  -- `for`
  · exact hnext (h.forLoop ctx)
  -- `switch`
  · refine hnext fun s hat => ?_
    refine (h.condition ctx).bind hat fun value s hat hvalue => ?_
    refine hat.expect_open .brace fun s hat' => ?_
    refine (Restores.manyUntil (fun c => h.switchCase ctx) .brace).bind hat.code hat'
      fun cases s hat hcases => .pure ⟨hat, ?_⟩
    simp only [Stmt.nesting, casesNesting_eq]
    omega
  -- `throw`
  · refine hnext fun s hat => ?_
    refine Ensures.get ?_
    dsimp only
    split
    · exact .failure
    · refine (h.expr ctx).bind hat fun e s hat he => ?_
      exact restores_endStatement.bind hat fun _ s hat _ => .pure ⟨hat, he⟩
  -- `try`
  · exact hnext (h.attempt ctx)
  -- `function`
  · exact hnext (h.functionDecl false)
  -- `class`
  · refine hnext fun s hat => ?_
    refine restores_readName.bind hat fun _ s hat _ => ?_
    exact (h.classTail ctx).bind hat fun _ s hat _ => .pure ⟨hat, hat.length_le⟩
  -- `var`
  · exact hnext (h.vars ctx)
  -- `debugger`
  · refine hnext fun s hat => ?_
    exact restores_endStatement.bind hat fun _ s hat _ => .pure ⟨hat, hat.length_le⟩
  -- `with`
  · refine hnext fun s hat => ?_
    refine (h.condition ctx).bind hat fun _ s hat _ => ?_
    exact (h.stmt ctx false marks).bind hat fun _ s hat _ => .pure ⟨hat, hat.length_le⟩
  -- a word that begins a declaration, or else an expression
  · split
    · exact hnext (h.vars ctx)
    refine ensures_letDeclares.bind fun b s hlet => ?_
    obtain ⟨rfl, -⟩ := hlet
    split
    · exact hnext (h.vars ctx)
    dsimp only
    split
    · refine Ensures.later? ?_
      split
      · next hlater =>
        refine ((hat.next (ht ▸ trivial)).and .next).bind fun _ s hs => ?_
        obtain ⟨hat, hs⟩ := hs
        have ht : s.token = .name "function" := by
          rw [hs, Option.any_some, Bool.and_eq_true, beq_iff_eq] at hlater
          exact hlater.1
        exact (hat.next (ht ▸ trivial)).bind fun _ => h.functionDecl true
      · exact h.exprStmt ctx _ hat
    · exact h.exprStmt ctx _ hat

theorem stmtBody (h : Nests bound g) (ctx : Context) (decls : Bool) :
    Restores bound marks (g.stmtBody ctx decls) Stmt.nesting := by
  intro source hat
  refine Ensures.token ?_
  split
  · next ht => exact (hat.next (ht ▸ by decide)).bind fun _ s hat => .pure ⟨hat, hat.length_le⟩
  · next ht =>
    refine (hat.next_open .brace ht).bind fun _ s hat' => ?_
    refine (h.stmts ctx).bind hat.code hat' fun body s hat hbody => .pure ⟨hat, ?_⟩
    simpa [Stmt.nesting] using hbody
  · next ht => exact h.wordStmt ctx decls hat ht
  · exact h.exprStmt ctx source hat

end Nests

/-! ### Sources -/

/-- A reader of regular expressions that measures each as the measure does. -/
def RestoresRegex (bound : Nat) (regex : Read Expr) : Prop :=
  ∀ {marks source}, At bound marks source → source.token = .punct "/" ∨ source.token = .punct "/=" →
    Ensures regex source (Fits bound marks Expr.nesting)

theorem nests_grammar {regex : Read Expr} (hregex : RestoresRegex bound regex) (n : Nat) :
    Nests bound (grammar regex n) := by
  induction n with
  | zero =>
    exact {
      regex := hregex
      assign := fun _ _ _ _ => .failure
      operand := fun _ _ _ _ => .failure
      constructed := fun _ _ _ _ => .failure
      binding := fun _ _ _ _ => .failure
      stmt := fun _ _ _ _ _ => .failure }
  | succ n ih =>
    exact {
      regex := hregex
      assign := fun ctx _ => ih.assignBody ctx
      operand := fun ctx _ => ih.operandBody ctx
      constructed := fun ctx _ => ih.constructedBody ctx
      binding := fun ctx _ => ih.bindingBody ctx
      stmt := fun ctx decls _ => ih.stmtBody ctx decls }

/-- **A source is nested no deeper** than the measure has it, if regular expressions are read as the
measure reads them and nothing in the source ends or opens a comment for the readers alone. -/
theorem nesting_of_readProgramWith? {regex : Read Expr} {s : List Char} {body : List Stmt}
    (hregex : RestoresRegex (reach [] s) regex) (hs : Regular s)
    (h : readProgramWith? regex s = some body) : deepest Stmt.nesting body ≤ reach [] s := by
  have hnests := nests_grammar hregex (2 * s.length + 2)
  unfold readProgramWith? at h
  dsimp only at h
  split at h
  · next source hsource =>
    obtain ⟨⟨body', source'⟩, hall, rfl⟩ := Option.map_eq_some_iff.mp h
    have hat := At.of_at? Code.nil hs (Nat.le_refl _) (Nat.le_refl _) hsource
    have hfits : Fits (reach [] s) [] (deepest Stmt.nesting) body' source' := by
      refine Ensures.loop (I := Fits (reach [] s) [] (deepest Stmt.nesting)) ?_ ?_ _ _ hall
      · exact ⟨hat, hat.length_le⟩
      · rintro body s ⟨hat, hbody⟩
        refine Ensures.token ?_
        split
        · exact .pure ⟨hat, by simpa using hbody⟩
        · refine (hnests.stmt _ true []).bind hat fun st s hat hst => .pure ⟨hat, ?_⟩
          rw [deepest_cons]
          omega
    simpa using hfits.room
  · cases h

end Scrape.Script
