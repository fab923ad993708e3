import Scrape.Proofs.Script.Bracket.Reader
import Scrape.Script.Reader.Expr

/-!
# Script — Bracket — Expressions

What the readers of expressions, patterns and functions give is nested no deeper than the measure
has it, if this is so for the readers that nest (`Nests`).
-/

namespace Scrape.Script

open Nesting Read

/-- The readers that nest come back to the marks they have started from, and the bound leaves room
for what they give; the reader of regular expressions has to do so where one starts. -/
structure Nests (bound : Nat) (g : Grammar) : Prop where
  regex : ∀ {marks source}, At bound marks source →
    source.token = .punct "/" ∨ source.token = .punct "/=" →
    Ensures g.regex source (Fits bound marks Expr.nesting)
  assign : ∀ ctx marks, Restores bound marks (g.assign ctx) Expr.nesting
  operand : ∀ ctx marks, Restores bound marks (g.operand ctx) Expr.nesting
  constructed : ∀ ctx marks, Restores bound marks (g.constructed ctx) Expr.nesting
  binding : ∀ ctx marks, Restores bound marks (g.binding ctx) Binding.nesting
  stmt : ∀ ctx decls marks, Restores bound marks (g.stmt ctx decls) Stmt.nesting

variable {bound : Nat} {marks : List Char} {g : Grammar}

theorem restores_readName : Restores bound marks readName fun _ => 0 := by
  intro source hat
  refine Ensures.token ?_
  split
  · next ht =>
    split
    · exact .failure
    · refine (hat.next (ht ▸ trivial)).bind fun _ s hat => ?_
      exact .pure ⟨hat, hat.length_le⟩
  · exact .failure

theorem restores_modifier (w : String) : Restores bound marks (Grammar.modifier w) fun _ => 0 := by
  intro source hat
  refine Ensures.seesWord ?_
  split
  · exact .pure ⟨hat, hat.length_le⟩
  · next hw =>
    have ht : source.token = .name w := by simpa using hw
    refine Ensures.later? ?_
    split
    · split
      · refine (hat.next (ht ▸ trivial)).bind fun _ s hat => .pure ⟨hat, hat.length_le⟩
      · exact .pure ⟨hat, hat.length_le⟩
    · exact .pure ⟨hat, hat.length_le⟩

namespace Nests

/-! ### Lists -/

theorem expr (h : Nests bound g) (ctx : Context) :
    Restores bound marks (g.expr ctx) Expr.nesting := by
  intro source hat
  unfold Grammar.expr
  refine (h.assign ctx marks).bind hat fun first s hat hfirst => ?_
  refine Ensures.sees ?_
  split
  · exact .pure ⟨hat, hfirst⟩
  · refine Ensures.map (Ensures.loop (I := fun parts s => At bound marks s ∧
      marks.length + deepest Expr.nesting parts ≤ bound) ?_ ?_)
    · exact ⟨hat, by simpa using hfirst⟩
    · rintro parts s ⟨hat, hparts⟩
      refine hat.accepts (by decide) fun b s hat => ?_
      split
      · refine (h.assign ctx marks).bind hat fun e s hat he => .pure ⟨hat, ?_⟩
        rw [deepest_cons]
        omega
      · exact .pure ⟨hat, by simpa using hparts⟩

theorem item (h : Nests bound g) (ctx : Context) :
    Restores bound marks (g.item ctx) Expr.nesting := by
  intro source hat
  refine hat.accepts (by decide) fun b s hat => ?_
  split
  · exact ((h.assign _ marks).map Expr.spread fun _ => rfl) s hat
  · exact h.assign _ marks s hat

theorem args (h : Nests bound g) (ctx : Context) :
    Closes bound marks (g.args ctx) (deepest Expr.nesting) := by
  intro c source hcode hat
  refine (Restores.listUntil (fun c => h.item ctx) .paren).bind hcode hat
    fun items s hat hitems => ?_
  exact .pure ⟨hat, hitems⟩

/-! ### Patterns and functions -/


theorem bindingWithDefault (h : Nests bound g) (ctx : Context) :
    Restores bound marks (g.bindingWithDefault ctx) Binding.nesting := by
  intro source hat
  refine (h.binding ctx marks).bind hat fun target s hat htarget => ?_
  refine hat.accepts (by decide) fun b s hat => ?_
  split
  · refine Ensures.map ((h.assign _ marks s hat).mono fun e s he => ⟨he.1, ?_⟩)
    have := he.2
    rw [Binding.nesting]
    omega
  · exact .pure ⟨hat, htarget⟩

theorem bindingItem (h : Nests bound g) (ctx : Context) :
    Restores bound marks (g.bindingItem ctx) Binding.nesting := by
  intro source hat
  refine hat.accepts (by decide) fun b s hat => ?_
  split
  · exact ((h.binding ctx marks).map Binding.rest fun _ => rfl) s hat
  · exact h.bindingWithDefault ctx s hat

theorem stmts (h : Nests bound g) (ctx : Context) :
    Closes bound marks (g.stmts ctx) (deepest Stmt.nesting) :=
  Restores.manyUntil (fun c => h.stmt ctx true (c :: marks)) .brace

theorem block (h : Nests bound g) (ctx : Context) :
    Restores bound marks (g.block ctx) fun body => deepest Stmt.nesting body + 1 :=
  fun _ hat => hat.expect_open .brace fun s hat' => h.stmts ctx.inner _ s hat.code hat'

theorem function (h : Nests bound g) (generator async : Bool) :
    Restores bound marks (g.function generator async) fun f =>
      max (deepest Binding.nesting f.1) (deepest Stmt.nesting f.2 + 1) := by
  intro source hat
  refine hat.expect_open .paren fun s hat' => ?_
  refine (Restores.listUntil (fun c => h.bindingItem _) .paren).bind hat.code hat'
    fun ps s hat hps => ?_
  refine (h.block _).bind hat fun body s hat hbody => .pure ⟨hat, ?_⟩
  dsimp only
  omega

theorem functionExpr (h : Nests bound g) (async : Bool) :
    Restores bound marks (g.functionExpr async) Expr.nesting := by
  intro source hat
  refine hat.accepts (by decide) fun generator s hat => ?_
  have hfunction : Restores bound marks
      (g.function generator async >>= fun f => pure (Expr.function f.1 f.2)) Expr.nesting := by
    intro source hat
    refine (h.function generator async).bind hat fun f s hat hf => .pure ⟨hat, ?_⟩
    simpa [Expr.nesting] using hf
  refine Ensures.sees ?_
  dsimp only
  split
  · exact restores_readName.bind hat fun _ s hat _ => hfunction s hat
  · exact hfunction s hat

theorem arrow (h : Nests bound g) (ctx : Context) (async : Bool) (params : List Binding)
    (hparams : marks.length + deepest Binding.nesting params ≤ bound) :
    Restores bound marks (g.arrow ctx async params) Expr.nesting := by
  intro source hat
  refine Ensures.get ?_
  split
  · exact .failure
  · refine hat.expect (by decide) fun s hat => Ensures.sees ?_
    split
    · refine (h.block _).bind hat fun body s hat hbody => .pure ⟨hat, ?_⟩
      simp only [Expr.nesting, bindingsNesting_eq, stmtsNesting_eq]
      omega
    · refine (h.assign _ marks).bind hat fun e s hat he => .pure ⟨hat, ?_⟩
      simp only [Expr.nesting, bindingsNesting_eq]
      omega

theorem memberName (h : Nests bound g) (ctx : Context) :
    Restores bound marks (g.memberName ctx) fun found => found.1.nesting := by
  intro source hat
  have htaken : ∀ found : Name × Option String, source.token.Mute → found.1.nesting = 0 →
      Ensures (do next; return found) source (Fits bound marks fun found => found.1.nesting) := by
    intro found ht hfound
    refine (hat.next ht).bind fun _ s hat => .pure ⟨hat, ?_⟩
    rw [hfound]
    exact hat.length_le
  refine Ensures.token ?_
  split
  · next n ht => exact htaken (.text n, some n) (ht ▸ trivial) rfl
  · next s ht => exact htaken (.text s, none) (ht ▸ trivial) rfl
  · next v ht => exact htaken (.number v, none) (ht ▸ trivial) rfl
  · next ht => exact htaken (.other, none) (ht ▸ trivial) rfl
  · next ht => exact htaken (.other, none) (ht ▸ trivial) rfl
  · next ht =>
    refine (hat.next_open .bracket ht).bind fun _ s hat' => ?_
    refine (h.assign _ _).bind hat' fun key s hat' hkey => ?_
    refine hat'.expect_close hat.code .bracket fun s hat => .pure ⟨hat, ?_⟩
    rw [List.length_cons] at hkey
    simp only [Name.nesting]
    omega
  · exact .failure


theorem field (h : Nests bound g) (ctx : Context) :
    Restores bound marks (g.field ctx) Field.nesting := by
  intro source hat
  refine hat.accepts (by decide) fun b s hat => ?_
  split
  · exact (h.assign _ marks).bind hat fun e s hat he => .pure ⟨hat, he⟩
  refine (restores_modifier "get").bind hat fun getter s hat _ => ?_
  refine (restores_modifier "set").bind hat fun setter s hat _ => ?_
  split
  · refine (h.memberName ctx).bind hat fun name s hat _ => ?_
    exact (h.function false false).bind hat fun f s hat _ => .pure ⟨hat, hat.length_le⟩
  refine (restores_modifier "async").bind hat fun async s hat _ => ?_
  refine hat.accepts (by decide) fun generator s hat => ?_
  refine (h.memberName ctx).bind hat fun name s hat hname => Ensures.sees ?_
  split
  · refine (h.function generator async).bind hat fun f s hat hf => .pure ⟨hat, ?_⟩
    simp only [Field.nesting, bindingsNesting_eq, stmtsNesting_eq]
    omega
  dsimp only
  split
  · exact .failure
  refine hat.accepts (by decide) fun b s hat => ?_
  split
  · refine (h.assign _ marks).bind hat fun e s hat he => .pure ⟨hat, ?_⟩
    simp only [Field.nesting]
    omega
  split
  · exact .failure
  · refine hat.accepts (by decide) fun b s hat => ?_
    split
    · exact (h.assign _ marks).bind hat fun e s hat he => .pure ⟨hat, he⟩
    · exact .pure ⟨hat, hat.length_le⟩

theorem fieldBinding (h : Nests bound g) (ctx : Context) :
    Restores bound marks (g.fieldBinding ctx) FieldBinding.nesting := by
  intro source hat
  refine hat.accepts (by decide) fun b s hat => ?_
  split
  · exact (h.binding ctx marks).bind hat fun b s hat hb => .pure ⟨hat, hb⟩
  refine (h.memberName ctx).bind hat fun name s hat hname => ?_
  refine hat.accepts (by decide) fun b s hat => ?_
  split
  · refine (h.bindingWithDefault ctx).bind hat fun b s hat hb => .pure ⟨hat, ?_⟩
    simp only [FieldBinding.nesting]
    omega
  split
  · exact .failure
  · refine hat.accepts (by decide) fun b s hat => ?_
    split
    · exact (h.assign _ marks).bind hat fun e s hat he => .pure ⟨hat, he⟩
    · exact .pure ⟨hat, hat.length_le⟩

end Nests

theorem closes_places {α : Type} {hole : α} {item : Read α} {nesting : α → Nat}
    (hitem : ∀ c, Restores bound (c :: marks) item nesting) (hhole : nesting hole = 0) :
    Closes bound marks (Grammar.places hole item) (deepest nesting) := by
  intro c source hcode hat
  refine Ensures.loop (I := fun items s => At bound (c :: marks) s ∧
    marks.length + (deepest nesting items + 1) ≤ bound) ?_ ?_
  · exact ⟨hat, hat.length_le⟩
  rintro items s ⟨hat, hitems⟩
  refine hat.accepts_close hcode .bracket (fun s hat => .pure ⟨hat, ?_⟩) ?_
  · simpa using hitems
  refine hat.accepts (by decide) fun b s hat => ?_
  split
  · refine .pure ⟨hat, ?_⟩
    rw [deepest_cons, hhole, Nat.zero_max]
    exact hitems
  refine (hitem c).bind hat fun a s hat ha => Ensures.sees ?_
  have hmore : marks.length + (deepest nesting (a :: items) + 1) ≤ bound := by
    rw [List.length_cons] at ha
    rw [deepest_cons]
    omega
  dsimp only
  split
  · exact hat.expect (by decide) fun s hat => .pure ⟨hat, hmore⟩
  · exact .pure ⟨hat, hmore⟩

namespace Nests

theorem bindingBody (h : Nests bound g) (ctx : Context) :
    Restores bound marks (g.bindingBody ctx) Binding.nesting := by
  intro source hat
  refine hat.accepts_open .bracket (fun s hat' => ?_) ?_
  · refine (closes_places (fun c => h.bindingItem ctx) rfl).bind hat.code hat'
      fun items s hat hitems => .pure ⟨hat, ?_⟩
    simpa [Binding.nesting] using hitems
  refine hat.accepts_open .brace (fun s hat' => ?_) ?_
  · refine (Restores.listUntil (fun c => h.fieldBinding ctx) .brace).bind hat.code hat'
      fun fields s hat hfields => .pure ⟨hat, ?_⟩
    simpa [Binding.nesting] using hfields
  · exact restores_readName.bind hat fun n s hat _ => .pure ⟨hat, hat.length_le⟩

theorem classMembers (h : Nests bound g) (ctx : Context) :
    Closes bound marks (g.classMembers ctx) fun _ => 0 := by
  intro c source hcode hat
  refine Ensures.loop (I := fun _ s => At bound (c :: marks) s) hat ?_
  intro x s hat
  refine hat.accepts_close hcode .brace (fun s hat' => .pure ⟨hat', hat.length_le⟩) ?_
  refine hat.accepts (by decide) fun b s hat => ?_
  split
  · exact .pure hat
  refine Ensures.seesWord (Ensures.later? ?_)
  split
  · next hstatic =>
    have ht : s.token = .name "static" := by
      simp only [Bool.and_eq_true, beq_iff_eq] at hstatic
      exact hstatic.1
    refine (hat.next (ht ▸ trivial)).bind fun _ s hat => ?_
    exact (h.block _).bind hat fun body s hat _ => .pure hat
  refine (restores_modifier "static").bind hat fun _ s hat _ => ?_
  refine (restores_modifier "get").bind hat fun _ s hat _ => ?_
  refine (restores_modifier "set").bind hat fun _ s hat _ => ?_
  refine (restores_modifier "async").bind hat fun async s hat _ => ?_
  refine hat.accepts (by decide) fun generator s hat => ?_
  refine (h.memberName ctx).bind hat fun name s hat hname => Ensures.sees ?_
  split
  · exact (h.function generator async).bind hat fun f s hat _ => .pure hat
  refine hat.accepts (by decide) fun b s hat => ?_
  dsimp only
  split
  · refine (h.assign _ _).bind hat fun e s hat _ => ?_
    exact restores_endStatement.bind hat fun _ s hat _ => .pure hat
  · exact restores_endStatement.bind hat fun _ s hat _ => .pure hat

theorem classTail (h : Nests bound g) (ctx : Context) :
    Restores bound marks (g.classTail ctx) fun _ => 0 := by
  intro source hat
  have hmembers : ∀ s, At bound marks s → Ensures (do
      expect "\x7b"
      g.classMembers ctx) s (Fits bound marks fun _ => 0) := fun s hat =>
    hat.expect_open .brace fun s hat' => (h.classMembers ctx _ s hat.code hat').mono
      fun _ s hs => ⟨hs.stands, hs.stands.length_le⟩
  refine hat.acceptsWord fun b s hat => ?_
  dsimp only
  split
  · exact (h.operand ctx marks).bind hat fun e s hat _ => hmembers s hat
  · exact hmembers s hat

theorem classExpr (h : Nests bound g) (ctx : Context) :
    Restores bound marks (g.classExpr ctx) fun _ => 0 := by
  intro source hat
  refine Ensures.sees (Ensures.seesWord ?_)
  dsimp only
  split
  · exact restores_readName.bind hat fun _ s hat _ => h.classTail ctx s hat
  · exact h.classTail ctx source hat

/-! ### Primary expressions -/

theorem template (h : Nests bound g) (ctx : Context) {source : Source} (hat : At bound marks source)
    (ht : source.token = .backquote) :
    Ensures (g.template ctx) source
      (Fits bound marks fun found => deepest Expr.nesting found.2.1 + 1) := by
  have hcode := hat.code
  have hstart := hat.templated ht
  refine Ensures.loop (I := fun x s => Templated bound marks s ∧
    marks.length + (deepest Expr.nesting x.2.1 + 1) ≤ bound) ?_ ?_
  · exact ⟨hstart, Nat.le_trans (length_le_reach ('\x60' :: marks) source.rest) hstart.reach_le⟩
  rintro ⟨texts, parts, good⟩ s ⟨hs, hparts⟩
  dsimp only at hparts
  refine Ensures.get ?_
  split
  · exact .failure
  next text goodHere more r hread =>
  obtain ⟨hsuffix, hreach⟩ := reach_of_readTemplate? hread marks
  have hregular := hs.regular.of_suffix hsuffix
  have hsize := Nat.le_trans hsuffix.length_le hs.size
  cases more with
  | false =>
    refine (ensures_goTo hcode hregular hsize (Nat.le_trans hreach hs.reach_le)).bind
      fun _ s hat => .pure ⟨hat, ?_⟩
    simpa using hparts
  | true =>
    have hbrace : Code ('\x7b' :: '\x60' :: marks) := .cons (by decide) _
    refine (ensures_goTo hbrace hregular hsize (Nat.le_trans hreach hs.reach_le)).bind
      fun _ s hat => ?_
    refine (h.expr _).bind hat fun part s hat hpart => Ensures.sees ?_
    dsimp only
    split
    · exact .failure
    · next hclose =>
      refine .pure ⟨hat.templated_of_brace (by simpa using hclose), ?_⟩
      simp only [List.length_cons] at hpart
      simp only [deepest_cons]
      omega

theorem word (h : Nests bound g) (ctx : Context) {w : String} {source : Source}
    (hat : At bound marks source) (ht : source.token = .name w) :
    Ensures (g.word ctx w) source (Fits bound marks Expr.nesting) := by
  refine Ensures.later? ((hat.next (ht ▸ trivial)).bind fun _ s hat => ?_)
  split
  · exact .pure ⟨hat, hat.length_le⟩
  · exact .pure ⟨hat, hat.length_le⟩
  · exact .pure ⟨hat, hat.length_le⟩
  · exact .pure ⟨hat, hat.length_le⟩
  · exact h.functionExpr false s hat
  · exact (h.classExpr ctx).bind hat fun _ s hat _ => .pure ⟨hat, hat.length_le⟩
  · refine hat.acceptsWord fun b s hat => ?_
    split
    · exact h.functionExpr true s hat
    · exact .pure ⟨hat, hat.length_le⟩
  · refine hat.accepts_open .paren (fun s hat' => ?_) ?_
    · exact (h.args ctx).bind hat.code hat' fun _ s hat _ => .pure ⟨hat, hat.length_le⟩
    refine hat.accepts (by decide) fun b s hat => ?_
    split
    · exact (h.memberName ctx).bind hat fun _ s hat _ => .pure ⟨hat, hat.length_le⟩
    refine hat.expect_open .bracket fun s hat' => ?_
    refine (h.expr _).bind hat' fun _ s hat' _ => ?_
    exact hat'.expect_close hat.code .bracket fun s hat => .pure ⟨hat, hat.length_le⟩
  · refine hat.accepts_open .paren (fun s hat' => ?_) ?_
    · exact (h.args ctx).bind hat.code hat' fun _ s hat _ => .pure ⟨hat, hat.length_le⟩
    refine hat.expect (by decide) fun s hat => ?_
    exact hat.expectWord fun s hat => .pure ⟨hat, hat.length_le⟩
  · split
    · exact .failure
    · exact .pure ⟨hat, hat.length_le⟩

end Nests

theorem mute_of_unaryOp? {t : Token} {op : UnaryOp} (h : Grammar.unaryOp? t = some op) :
    t.Mute := by
  unfold Grammar.unaryOp? at h
  split at h
  all_goals first | decide | cases h

theorem mute_of_updateOp? {t : Token} {up : Bool} (h : Grammar.updateOp? t = some up) : t.Mute := by
  unfold Grammar.updateOp? at h
  split at h
  all_goals first | decide | cases h

theorem mute_of_binaryOp? {ctx : Context} {t : Token} {found : BinaryOp × Nat}
    (h : Grammar.binaryOp? ctx t = some found) : t.Mute := by
  unfold Grammar.binaryOp? at h
  split at h
  all_goals first | decide | cases h

theorem mute_of_assignOp? {t : Token} {op : AssignOp} (h : Grammar.assignOp? t = some op) :
    t.Mute := by
  unfold Grammar.assignOp? at h
  split at h
  all_goals first | decide | cases h

theorem nesting_of_parenOf? {items : List Expr} {comma : Bool} {e : Expr}
    (h : Grammar.parenOf? items comma = some e) : e.nesting ≤ deepest Expr.nesting items + 1 := by
  unfold Grammar.parenOf? at h
  split at h
  · cases h
  · split at h
    · cases h
    · cases h
    · cases h
      simp [Expr.nesting]
    · split at h
      · cases h
      · cases h
        simp [Expr.nesting]

namespace Nests

theorem primary (h : Nests bound g) (ctx : Context) :
    Restores bound marks (g.primary ctx) Expr.nesting := by
  intro source hat
  refine Ensures.token ?_
  split
  · next ht => exact (hat.next (ht ▸ trivial)).bind fun _ s hat => .pure ⟨hat, hat.length_le⟩
  · next ht => exact (hat.next (ht ▸ trivial)).bind fun _ s hat => .pure ⟨hat, hat.length_le⟩
  · next ht => exact (hat.next (ht ▸ trivial)).bind fun _ s hat => .pure ⟨hat, hat.length_le⟩
  · next ht => exact h.word ctx hat ht
  · next ht =>
    refine (h.template ctx hat ht).bind ?_
    rintro ⟨texts, parts, good⟩ s hs
    dsimp only
    split
    · refine .pure ⟨hs.stands, ?_⟩
      simpa [Expr.nesting] using hs.room
    · exact .failure
  · next ht =>
    refine (hat.next_open .paren ht).bind fun _ s hat' => ?_
    refine (Restores.listUntil (fun c => h.item ctx) .paren).bind hat.code hat'
      fun items s hat hitems => .ofLift fun e he => ⟨hat, ?_⟩
    have := nesting_of_parenOf? he
    omega
  · next ht =>
    refine (hat.next_open .bracket ht).bind fun _ s hat' => ?_
    refine (closes_places (fun c => h.item ctx) rfl).bind hat.code hat'
      fun items s hat hitems => .pure ⟨hat, ?_⟩
    simpa [Expr.nesting] using hitems
  · next ht =>
    refine (hat.next_open .brace ht).bind fun _ s hat' => ?_
    refine (Restores.listUntil (fun c => h.field ctx) .brace).bind hat.code hat'
      fun fields s hat hfields => .pure ⟨hat, ?_⟩
    simpa [Expr.nesting] using hfields
  · next ht => exact h.regex hat (.inl ht)
  · next ht => exact h.regex hat (.inr ht)
  · exact .failure

theorem accesses (h : Nests bound g) (ctx : Context) (calls : Bool) {start : Expr}
    (hstart : marks.length + start.nesting ≤ bound) :
    Restores bound marks (g.accesses ctx calls start) Expr.nesting := by
  intro source hat
  refine Ensures.loop (I := fun x s => At bound marks s ∧ marks.length + x.1.nesting ≤ bound) ?_ ?_
  · exact ⟨hat, hstart⟩
  rintro ⟨e, optional⟩ s ⟨hat, he⟩
  dsimp only at he ⊢
  -- a member with its name after a point
  refine hat.accepts (by decide) fun b s hat => ?_
  split
  · refine Ensures.token ?_
    split
    · next ht =>
      refine (hat.next (ht ▸ trivial)).bind fun _ s hat => .pure ⟨hat, ?_⟩
      simpa [Expr.nesting, Name.nesting] using he
    · next ht =>
      refine (hat.next (ht ▸ trivial)).bind fun _ s hat => .pure ⟨hat, ?_⟩
      simpa [Expr.nesting, Name.nesting] using he
    · exact .failure
  -- a member with its key in brackets
  refine hat.accepts_open .bracket (fun s hat' => ?_) ?_
  · refine (h.expr _).bind hat' fun key s hat' hkey => ?_
    refine hat'.expect_close hat.code .bracket fun s hat => .pure ⟨hat, ?_⟩
    simp only [List.length_cons] at hkey
    simp only [Expr.nesting, Name.nesting]
    omega
  -- a call
  refine Ensures.sees ?_
  split
  · next hcall =>
    have ht : s.token = .punct "(" := by
      simp only [Bool.and_eq_true, beq_iff_eq] at hcall
      exact hcall.1
    refine (hat.next_open .paren ht).bind fun _ s hat' => ?_
    refine (h.args ctx).bind hat.code hat' fun args s hat hargs => .pure ⟨hat, ?_⟩
    simp only [Expr.nesting, exprsNesting_eq]
    omega
  -- a member or a call after `?.`, of which only the brackets count
  refine Ensures.sees ?_
  split
  · next hcall =>
    have ht : s.token = .punct "?." := by
      simp only [Bool.and_eq_true, beq_iff_eq] at hcall
      exact hcall.1
    have hlast : ∀ {s}, At bound marks s →
        Ensures (pure (.inl (e, true)) : Read (Expr × Bool ⊕ Expr)) s
          (Goes (fun x s => At bound marks s ∧ marks.length + x.1.nesting ≤ bound)
            (Fits bound marks Expr.nesting)) := fun hat => .pure ⟨hat, he⟩
    refine (hat.next (ht ▸ by decide)).bind fun _ s hat => ?_
    refine hat.accepts_open .paren (fun s hat' => ?_) ?_
    · exact (h.args ctx).bind hat.code hat' fun _ s hat _ => hlast hat
    refine hat.accepts_open .bracket (fun s hat' => ?_) ?_
    · refine (h.expr _).bind hat' fun _ s hat' _ => ?_
      exact hat'.expect_close hat.code .bracket fun s hat => hlast hat
    refine Ensures.token ?_
    split
    · next ht => exact (hat.next (ht ▸ trivial)).bind fun _ s hat => hlast hat
    · next ht => exact (hat.next (ht ▸ trivial)).bind fun _ s hat => hlast hat
    · exact .failure
  -- a tagged template, or the end
  refine Ensures.token ?_
  split
  · next hquote =>
    have ht : s.token = .backquote := by
      simp only [Bool.and_eq_true, beq_iff_eq] at hquote
      exact hquote.1
    exact (h.template ctx hat ht).bind fun _ s hs => .pure ⟨hs.stands, hs.stands.length_le⟩
  · refine .pure ⟨hat, ?_⟩
    split
    · exact hat.length_le
    · exact he

theorem constructedBody (h : Nests bound g) (ctx : Context) :
    Restores bound marks (g.constructedBody ctx) Expr.nesting := by
  intro source hat
  have hrest : ∀ {head s}, At bound marks s → marks.length + head.nesting ≤ bound →
      Ensures (do
        let callee ← g.accesses ctx false head
        if ← sees "?." then failure
        if ← accepts "(" then return .construct callee (← g.args ctx)
        return .construct callee []) s (Fits bound marks Expr.nesting) := by
    intro head s hat hhead
    refine (h.accesses ctx false hhead).bind hat fun callee s hat hcallee => Ensures.sees ?_
    dsimp only
    split
    · exact .failure
    refine hat.accepts_open .paren (fun s hat' => ?_) ?_
    · refine (h.args ctx).bind hat.code hat' fun args s hat hargs => .pure ⟨hat, ?_⟩
      cases args with
      | nil => exact hcallee
      | cons a args =>
        simp only [deepest_cons] at hargs
        simp only [Expr.nesting, exprsNesting_eq]
        omega
    · exact .pure ⟨hat, hcallee⟩
  refine hat.expectWord fun s hat => ?_
  refine hat.accepts (by decide) fun b s hat => ?_
  split
  · exact hat.expectWord fun s hat => .pure ⟨hat, hat.length_le⟩
  refine Ensures.seesWord ?_
  dsimp only
  split
  · exact (h.constructed ctx marks).bind hat fun e s hat he => hrest hat he
  · exact (h.primary ctx).bind hat fun e s hat he => hrest hat he

/-! ### Operators -/

theorem operandFrom (h : Nests bound g) (ctx : Context) {start : Expr}
    (hstart : marks.length + start.nesting ≤ bound) :
    Restores bound marks (g.operandFrom ctx start) Expr.nesting := by
  intro source hat
  refine (h.accesses ctx true hstart).bind hat fun e s hat he => Ensures.get ?_
  split
  · exact .pure ⟨hat, he⟩
  refine Ensures.token ?_
  split
  · next hup => exact (hat.next (mute_of_updateOp? hup)).bind fun _ s hat => .pure ⟨hat, he⟩
  · exact .pure ⟨hat, he⟩

theorem operandBody (h : Nests bound g) (ctx : Context) :
    Restores bound marks (g.operandBody ctx) Expr.nesting := by
  intro source hat
  refine Ensures.token ?_
  split
  · next hop =>
    refine (hat.next (mute_of_unaryOp? hop)).bind fun _ s hat => ?_
    exact (h.operand ctx marks).bind hat fun e s hat he => .pure ⟨hat, he⟩
  · next hup _ =>
    refine (hat.next (mute_of_updateOp? hup)).bind fun _ s hat => ?_
    exact (h.operand ctx marks).bind hat fun e s hat he => .pure ⟨hat, he⟩
  split
  · next hawait =>
    rw [beq_iff_eq] at hawait
    refine (hat.next (hawait ▸ trivial)).bind fun _ s hat => Ensures.token ?_
    split
    · exact .pure ⟨hat, hat.length_le⟩
    · exact (h.operand ctx marks).bind hat fun e s hat he => .pure ⟨hat, hat.length_le⟩
  dsimp only
  split
  · exact (h.constructedBody ctx).bind hat fun e s hat he => h.operandFrom ctx he s hat
  · exact (h.primary ctx).bind hat fun e s hat he => h.operandFrom ctx he s hat

end Nests

theorem nesting_of_settle (limit : Nat) (pending : List Grammar.Pending) (last : Expr) :
    max (deepest (fun p => p.left.nesting) (Grammar.settle limit pending last).1)
        (Grammar.settle limit pending last).2.nesting ≤
      max (deepest (fun p => p.left.nesting) pending) last.nesting := by
  induction pending generalizing last with
  | nil => exact Nat.le_refl _
  | cons p pending ih =>
    rw [Grammar.settle]
    split
    · refine Nat.le_trans (ih _) ?_
      simp only [Expr.nesting, deepest_cons]
      omega
    · exact Nat.le_refl _

namespace Nests

theorem operations (h : Nests bound g) (ctx : Context) {first : Expr}
    (hfirst : marks.length + first.nesting ≤ bound) :
    Restores bound marks (g.operations ctx first) Expr.nesting := by
  intro source hat
  refine Ensures.loop (I := fun x s => At bound marks s ∧
    marks.length + max (deepest (fun p => p.left.nesting) x.1) x.2.nesting ≤ bound) ?_ ?_
  · exact ⟨hat, by simpa using hfirst⟩
  rintro ⟨pending, last⟩ s ⟨hat, hdeep⟩
  refine Ensures.token ?_
  split
  · have := nesting_of_settle 0 pending last
    refine .pure ⟨hat, ?_⟩
    dsimp only at hdeep
    omega
  next op tightness hop =>
  have hnext : ∀ limit, Ensures (do
      next
      let last' ← g.operand ctx
      let settled := Grammar.settle limit pending last
      return .inl (⟨settled.2, op, tightness⟩ :: settled.1, last')) s
      (Goes (fun x s => At bound marks s ∧
        marks.length + max (deepest (fun p => p.left.nesting) x.1) x.2.nesting ≤ bound)
        (Fits bound marks Expr.nesting)) := by
    intro limit
    have hsettle := nesting_of_settle limit pending last
    refine (hat.next (mute_of_binaryOp? hop)).bind fun _ s hat => ?_
    refine (h.operand ctx marks).bind hat fun e s hat he => .pure ⟨hat, ?_⟩
    simp only [deepest_cons]
    dsimp only at hdeep
    omega
  dsimp only
  split
  · split
    · exact .failure
    · exact hnext _
  · exact hnext _

theorem assignFrom (h : Nests bound g) (ctx : Context) {first : Expr}
    (hfirst : marks.length + first.nesting ≤ bound) :
    Restores bound marks (g.assignFrom ctx first) Expr.nesting := by
  intro source hat
  have hassigned : ∀ {e : Expr} {s op}, At bound marks s → marks.length + e.nesting ≤ bound →
      Grammar.assignOp? s.token = some op →
      Ensures (do
        let target ← lift (if op = .plain then e.assignTarget? else e.updateTarget?)
        next
        return .assign op target (← g.assign ctx)) s (Fits bound marks Expr.nesting) := by
    intro e s op hat he hop
    refine Ensures.lift fun target htarget => ?_
    have htarget : target.nesting ≤ e.nesting := by
      split at htarget
      · exact nesting_of_assignTarget? htarget
      · exact nesting_of_updateTarget? htarget
    refine (hat.next (mute_of_assignOp? hop)).bind fun _ s hat => ?_
    refine (h.assign ctx marks).bind hat fun v s hat hv => .pure ⟨hat, ?_⟩
    simp only [Expr.nesting]
    omega
  refine (h.operations ctx hfirst).bind hat fun e s hat he => ?_
  refine hat.accepts (by decide) fun b s hat => ?_
  dsimp only
  split
  · refine (h.assign _ marks).bind hat fun yes s hat hyes => ?_
    refine hat.expect (by decide) fun s hat => ?_
    refine (h.assign ctx marks).bind hat fun no s hat hno => ?_
    have hconditional : marks.length + (Expr.conditional e yes no).nesting ≤ bound := by
      simp only [Expr.nesting]
      omega
    rw [pure_bind]
    refine Ensures.token ?_
    split
    · exact .pure ⟨hat, hconditional⟩
    · next op hop => exact hassigned hat hconditional hop
  · rw [pure_bind]
    refine Ensures.token ?_
    split
    · exact .pure ⟨hat, he⟩
    · next op hop => exact hassigned hat he hop

theorem yields (h : Nests bound g) (ctx : Context) {source : Source} {w : String}
    (hat : At bound marks source) (ht : source.token = .name w) :
    Ensures (g.yields ctx) source (Fits bound marks Expr.nesting) := by
  refine (hat.next (ht ▸ trivial)).bind fun _ s hat => ?_
  refine Ensures.get (Ensures.token (Ensures.token ?_))
  split
  · exact .pure ⟨hat, hat.length_le⟩
  · refine hat.accepts (by decide) fun b s hat => ?_
    exact (h.assign ctx marks).bind hat fun e s hat _ => .pure ⟨hat, hat.length_le⟩

theorem assignBody (h : Nests bound g) (ctx : Context) :
    Restores bound marks (g.assignBody ctx) Expr.nesting := by
  intro source hat
  have hoperand : Ensures (do g.assignFrom ctx (← g.operand ctx)) source
      (Fits bound marks Expr.nesting) :=
    (h.operand ctx marks).bind hat fun e s hat he => h.assignFrom ctx he s hat
  refine Ensures.token ?_
  split
  · next ht =>
    refine (hat.next_open .paren ht).bind fun _ s hat' => ?_
    refine (Restores.listUntil (fun c => h.item ctx) .paren).bind hat.code hat' ?_
    rintro ⟨items, comma⟩ s hat hitems
    dsimp only at hitems
    refine Ensures.sees ?_
    split
    · refine Ensures.lift fun params hparams => h.arrow ctx false params ?_ s hat
      have := nesting_of_bindings? false items hparams
      rw [bindingsNesting_eq, exprsNesting_eq] at this
      omega
    · refine Ensures.lift fun e he => ?_
      have := nesting_of_parenOf? he
      refine (h.operandFrom ctx (by omega)).bind hat fun e s hat he => h.assignFrom ctx he s hat
  · next w ht =>
    split
    · exact h.yields ctx hat ht
    refine Ensures.later? ?_
    dsimp only
    split
    · exact restores_readName.bind hat fun n s hat _ =>
        h.arrow ctx false [.name n] hat.length_le s hat
    · split
      · refine (hat.next (ht ▸ trivial)).bind fun _ s hat => ?_
        exact restores_readName.bind hat fun n s hat _ =>
          h.arrow ctx true [.name n] hat.length_le s hat
      · exact hoperand
    · next hlater =>
      split
      · refine ((hat.next (ht ▸ trivial)).and .next).bind fun _ s hs => ?_
        obtain ⟨hat, hs⟩ := hs
        have ht : s.token = .punct "(" := by simpa [hs] using hlater
        refine (hat.next_open .paren ht).bind fun _ s hat' => ?_
        refine (h.args ctx).bind hat.code hat' fun items s hat hitems => Ensures.sees ?_
        split
        · refine Ensures.lift fun params hparams => h.arrow ctx true params ?_ s hat
          have := nesting_of_bindings? false items hparams
          rw [bindingsNesting_eq, exprsNesting_eq] at this
          omega
        · refine (h.operandFrom ctx ?_).bind hat fun e s hat he => h.assignFrom ctx he s hat
          simp only [Expr.nesting, exprsNesting_eq]
          omega
      · exact hoperand
    · exact hoperand
  · exact hoperand

end Nests

end Scrape.Script
