import Scrape.Proofs.Script.Bracket.Token
import Scrape.Proofs.Script.Bracket.Tree
import Scrape.Script.Reader.Source

/-!
# Script — Bracket — Reader

What readers make of the measure.  A reader stands at marks when the measure of what is left, with
the marks open, stays within a bound (`At`).  A mute token leaves the marks as they are, an opening
bracket adds one and a closing bracket takes one away; so a reader that comes back to the marks it
has started from gives a tree for which the bound leaves room around it (`Restores`), and likewise
one that goes on to the closing bracket of what it reads (`Closes`).
-/

namespace Scrape.Script

open Nesting Read

variable {α β σ : Type}

/-! ### What a reader ensures -/

/-- Whatever the reader gives from the source on, and wherever it leads, satisfies the condition. -/
def Ensures (r : Read α) (source : Source) (Q : α → Source → Prop) : Prop :=
  ∀ a source', r.run source = some (a, source') → Q a source'

namespace Ensures

variable {r : Read α} {f : α → Read β} {source : Source} {P : α → Source → Prop}
  {Q : β → Source → Prop}

theorem pure {b : β} (h : Q b source) : Ensures (Pure.pure b) source Q := by
  intro b' source' hrun
  cases hrun
  exact h

theorem failure : Ensures (Alternative.failure : Read β) source Q := by
  intro b source' hrun
  cases hrun

theorem bind (h : Ensures r source P) (hf : ∀ a s, P a s → Ensures (f a) s Q) :
    Ensures (r >>= f) source Q := by
  intro b source' hrun
  rw [StateT.run_bind, Option.bind_eq_bind, Option.bind_eq_some_iff] at hrun
  obtain ⟨⟨a, s⟩, ha, hb⟩ := hrun
  exact hf a s (h a s ha) b source' hb

theorem mono {P' : α → Source → Prop} (h : Ensures r source P) (hP : ∀ a s, P a s → P' a s) :
    Ensures r source P' := fun a s hrun => hP a s (h a s hrun)

theorem and {P' : α → Source → Prop} (h : Ensures r source P) (h' : Ensures r source P') :
    Ensures r source fun a s => P a s ∧ P' a s := fun a s hrun => ⟨h a s hrun, h' a s hrun⟩

theorem map {g : α → β} (h : Ensures r source fun a s => Q (g a) s) :
    Ensures (g <$> r) source Q := by
  rw [map_eq_pure_bind]
  exact h.bind fun _ _ => pure

theorem lift {a? : Option α} (h : ∀ a, a? = some a → Ensures (f a) source Q) :
    Ensures (Read.lift a? >>= f) source Q := by
  cases a? with
  | none => exact failure
  | some a => exact h a rfl

theorem ofLift {b? : Option β} (h : ∀ b, b? = some b → Q b source) :
    Ensures (Read.lift b?) source Q := by
  intro b source' hrun
  cases b? with
  | none => cases hrun
  | some b =>
    cases hrun
    exact h b rfl

theorem get {f : Source → Read β} (h : Ensures (f source) source Q) :
    Ensures (MonadState.get >>= f) source Q := h

theorem token {f : Token → Read β} (h : Ensures (f source.token) source Q) :
    Ensures (Read.token >>= f) source Q := h

theorem sees {f : Bool → Read β} {p : String}
    (h : Ensures (f (source.token == .punct p)) source Q) :
    Ensures (Read.sees p >>= f) source Q := h

theorem seesWord {f : Bool → Read β} {w : String}
    (h : Ensures (f (source.token == .name w)) source Q) :
    Ensures (Read.seesWord w >>= f) source Q := h

theorem later? {f : Option Source → Read β}
    (h : Ensures (f (Source.at? source.size source.rest)) source Q) :
    Ensures (Read.later? >>= f) source Q := h

theorem next : Ensures Read.next source fun _ s => Source.at? source.size source.rest = some s := by
  refine get (get (lift fun source' h => ?_))
  intro u source'' hrun
  cases hrun
  exact h

end Ensures

/-- What a step of a loop leads to: its next state, or its result. -/
abbrev Goes (I : σ → Source → Prop) (Q : α → Source → Prop) : σ ⊕ α → Source → Prop := Sum.elim I Q

/-- **A loop ensures** what the last of its steps does, if each step keeps the invariant. -/
theorem Ensures.loop {step : σ → Read (σ ⊕ α)} {I : σ → Source → Prop} {Q : α → Source → Prop}
    {x : σ} {source : Source} (h : I x source)
    (hstep : ∀ x s, I x s → Ensures (step x) s (Goes I Q)) : Ensures (loop step x) source Q := by
  have hrepeated : ∀ n x s, I x s → Ensures (repeated step n x) s Q := by
    intro n
    induction n with
    | zero => exact fun _ _ _ => failure
    | succ n ih =>
      intro x s h
      refine (hstep x s h).bind fun y s hy => ?_
      cases y with
      | inl x => exact ih x s hy
      | inr a => exact pure hy
  exact Ensures.get (hrepeated _ x source h)

/-! ### Brackets -/

/-- A mark of punctuation that opens a bracket. -/
structure Opening (p : String) (c : Char) : Prop where
  text : p.toList = [c]
  opens : opens c = true
  code : c ≠ '\x60'

/-- A mark of punctuation that closes a bracket. -/
structure Closing (p : String) (c : Char) : Prop where
  text : p.toList = [c]
  closes : closes c = true

theorem Opening.paren : Opening "(" '(' := ⟨rfl, rfl, by decide⟩
theorem Opening.bracket : Opening "[" '[' := ⟨rfl, rfl, by decide⟩
theorem Opening.brace : Opening "\x7b" '\x7b' := ⟨rfl, rfl, by decide⟩

theorem Closing.paren : Closing ")" ')' := ⟨rfl, rfl⟩
theorem Closing.bracket : Closing "]" ']' := ⟨rfl, rfl⟩
theorem Closing.brace : Closing "\x7d" '\x7d' := ⟨rfl, rfl⟩

/-! ### Where a reader stands -/

/-- The marks are open where the source is, and what is left of it is measured within the bound. -/
structure At (bound : Nat) (marks : List Char) (source : Source) : Prop where
  code : Code marks
  token : readToken? source.text = some (source.token, source.rest)
  free : NoComment source.text
  regular : Regular source.text
  size : source.text.length ≤ source.size
  reach_le : reach marks source.text ≤ bound

section

variable {bound : Nat} {marks : List Char} {source : Source} {c : Char} {p w : String}

/-- The first token of a text stands at marks that are measured within the bound from the text. -/
theorem At.of_at? {size : Nat} {s : List Char} (hcode : Code marks) (hs : Regular s)
    (hsize : s.length ≤ size) (hreach : reach marks s ≤ bound)
    (h : Source.at? size s = some source) : At bound marks source := by
  unfold Source.at? at h
  split at h
  · next hblanks =>
    obtain ⟨hleads, hfree⟩ := leads_of_skipBlanks? hs hblanks
    obtain ⟨⟨token, rest⟩, htoken, heq⟩ := Option.map_eq_some_iff.mp h
    cases heq
    exact {
      code := hcode
      token := htoken
      free := hfree (Nat.lt_succ_of_le hsize)
      regular := hs.of_suffix hleads.suffix
      size := Nat.le_trans hleads.suffix.length_le hsize
      reach_le := Nat.le_trans (hleads.reach_le marks hcode) hreach }
  · cases h

theorem ensures_goTo {s : List Char} (hcode : Code marks) (hs : Regular s)
    (hsize : s.length ≤ source.size) (hreach : reach marks s ≤ bound) :
    Ensures (goTo s) source fun _ s => At bound marks s := by
  refine Ensures.get (Ensures.lift fun source' h => ?_)
  intro u source'' hrun
  cases hrun
  exact .of_at? hcode hs hsize hreach h

namespace At

theorem length_le (hat : At bound marks source) : marks.length ≤ bound :=
  Nat.le_trans (length_le_reach marks source.text) hat.reach_le

theorem rest_suffix (hat : At bound marks source) : source.rest <:+ source.text :=
  suffix_of_readToken? hat.token

/-- To go on after the next token, the marks may be others if the measure agrees. -/
theorem next_of_reach_le {marks' : List Char} (hat : At bound marks source) (hcode : Code marks')
    (h : reach marks' source.rest ≤ reach marks source.text) :
    Ensures next source fun _ s => At bound marks' s :=
  Ensures.get (ensures_goTo hcode (hat.regular.of_suffix hat.rest_suffix)
    (Nat.le_trans hat.rest_suffix.length_le hat.size) (Nat.le_trans h hat.reach_le))

theorem next (hat : At bound marks source) (ht : source.token.Mute) :
    Ensures next source fun _ s => At bound marks s :=
  have hleads := leads_of_readToken? hat.free ht hat.token
  hat.next_of_reach_le hat.code (hleads.reach_le marks hat.code)

theorem next_open (hat : At bound marks source) (hp : Opening p c)
    (ht : source.token = .punct p) :
    Ensures Read.next source fun _ s => At bound (c :: marks) s := by
  have htext := eq_append_of_readToken? (ht ▸ hat.token)
  rw [hp.text, List.singleton_append] at htext
  refine hat.next_of_reach_le (.cons hp.code marks) ?_
  rw [htext, reach_open hat.code hp.opens]

theorem next_close {d : Char} (hat : At bound (c :: marks) source) (hcode : Code marks)
    (hp : Closing p d) (ht : source.token = .punct p) :
    Ensures Read.next source fun _ s => At bound marks s := by
  have htext := eq_append_of_readToken? (ht ▸ hat.token)
  rw [hp.text, List.singleton_append] at htext
  refine hat.next_of_reach_le hcode ?_
  rw [htext]
  exact reach_le_close hat.code hp.closes

end At

/-! ### Marks of punctuation and words that are taken -/

variable {r r' : Read β} {f : Bool → Read β} {Q : β → Source → Prop}

/-- To take a token if it comes next is to go on after it, or to stay. -/
theorem Ensures.accepts
    (yes : source.token = .punct p → Ensures (Read.next >>= fun _ => f true) source Q)
    (no : Ensures (f false) source Q) : Ensures (accepts p >>= f) source Q := by
  rw [Read.accepts, bind_assoc]
  refine Ensures.sees ?_
  by_cases h : source.token = .punct p
  · rw [beq_iff_eq.mpr h, if_pos rfl, bind_assoc]
    exact yes h
  · rw [beq_eq_false_iff_ne.mpr h]
    exact no

theorem Ensures.acceptsWord
    (yes : source.token = .name w → Ensures (Read.next >>= fun _ => f true) source Q)
    (no : Ensures (f false) source Q) : Ensures (acceptsWord w >>= f) source Q := by
  rw [Read.acceptsWord, bind_assoc]
  refine Ensures.seesWord ?_
  by_cases h : source.token = .name w
  · rw [beq_iff_eq.mpr h, if_pos rfl, bind_assoc]
    exact yes h
  · rw [beq_eq_false_iff_ne.mpr h]
    exact no

namespace At

theorem accepts (hat : At bound marks source) (hp : p ∉ brackets)
    (h : ∀ b s, At bound marks s → Ensures (f b) s Q) : Ensures (accepts p >>= f) source Q :=
  Ensures.accepts (fun ht => (hat.next (ht ▸ hp)).bind fun _ s hat => h true s hat)
    (h false source hat)

theorem accepts_open (hat : At bound marks source) (hp : Opening p c)
    (yes : ∀ s, At bound (c :: marks) s → Ensures r s Q) (no : Ensures r' source Q) :
    Ensures (Read.accepts p >>= fun b => if b = true then r else r') source Q :=
  Ensures.accepts (fun ht => (hat.next_open hp ht).bind fun _ => yes) no

theorem accepts_close {d : Char} (hat : At bound (c :: marks) source) (hcode : Code marks)
    (hp : Closing p d) (yes : ∀ s, At bound marks s → Ensures r s Q) (no : Ensures r' source Q) :
    Ensures (Read.accepts p >>= fun b => if b = true then r else r') source Q :=
  Ensures.accepts (fun ht => (hat.next_close hcode hp ht).bind fun _ => yes) no

theorem acceptsWord (hat : At bound marks source)
    (h : ∀ b s, At bound marks s → Ensures (f b) s Q) : Ensures (acceptsWord w >>= f) source Q :=
  Ensures.acceptsWord (fun ht => (hat.next (ht ▸ trivial)).bind fun _ s hat => h true s hat)
    (h false source hat)

variable {g : Unit → Read β}

theorem expect (hat : At bound marks source) (hp : p ∉ brackets)
    (h : ∀ s, At bound marks s → Ensures (g ()) s Q) : Ensures (expect p >>= g) source Q := by
  rw [Read.expect, bind_assoc]
  exact Ensures.accepts (fun ht => (hat.next (ht ▸ hp)).bind fun _ => h) .failure

theorem expect_open (hat : At bound marks source) (hp : Opening p c)
    (h : ∀ s, At bound (c :: marks) s → Ensures (g ()) s Q) :
    Ensures (Read.expect p >>= g) source Q := by
  rw [Read.expect, bind_assoc]
  exact Ensures.accepts (fun ht => (hat.next_open hp ht).bind fun _ => h) .failure

theorem expect_close {d : Char} (hat : At bound (c :: marks) source) (hcode : Code marks)
    (hp : Closing p d) (h : ∀ s, At bound marks s → Ensures (g ()) s Q) :
    Ensures (Read.expect p >>= g) source Q := by
  rw [Read.expect, bind_assoc]
  exact Ensures.accepts (fun ht => (hat.next_close hcode hp ht).bind fun _ => h) .failure

theorem expectWord (hat : At bound marks source)
    (h : ∀ s, At bound marks s → Ensures (g ()) s Q) : Ensures (expectWord w >>= g) source Q := by
  rw [Read.expectWord, bind_assoc]
  exact Ensures.acceptsWord (fun ht => (hat.next (ht ▸ trivial)).bind fun _ => h) .failure

end At

end

/-! ### Readers of what stands between brackets -/

/-- The source stands at the marks, and there is room in them for what is nested within the
bound. -/
structure Fits (bound : Nat) (marks : List Char) (nesting : α → Nat) (a : α) (source : Source) :
    Prop where
  stands : At bound marks source
  room : marks.length + nesting a ≤ bound

/-- The reader comes back to the marks it has started from, and there is room in them for what it
gives. -/
def Restores (bound : Nat) (marks : List Char) (r : Read α) (nesting : α → Nat) : Prop :=
  ∀ source, At bound marks source → Ensures r source (Fits bound marks nesting)

/-- The reader goes on from an open bracket to after its closing, and there is room in that bracket
for what it gives. -/
def Closes (bound : Nat) (marks : List Char) (r : Read α) (nesting : α → Nat) : Prop :=
  ∀ c source, Code marks → At bound (c :: marks) source →
    Ensures r source (Fits bound marks fun a => nesting a + 1)

section

variable {bound : Nat} {marks : List Char} {source : Source} {c : Char} {p w : String}
  {nesting : α → Nat} {r : Read α} {f : α → Read β} {Q : β → Source → Prop}

theorem Restores.bind (h : Restores bound marks r nesting) (hat : At bound marks source)
    (hf : ∀ a s, At bound marks s → marks.length + nesting a ≤ bound → Ensures (f a) s Q) :
    Ensures (r >>= f) source Q :=
  (h source hat).bind fun a s ha => hf a s ha.1 ha.2

theorem Restores.map {nesting' : β → Nat} (g : α → β) (h : Restores bound marks r nesting)
    (hg : ∀ a, nesting' (g a) = nesting a) : Restores bound marks (g <$> r) nesting' := by
  refine fun source hat => Ensures.map ((h source hat).mono fun a s ha => ⟨ha.1, ?_⟩)
  rw [hg]
  exact ha.2

theorem Closes.bind (h : Closes bound marks r nesting) (hcode : Code marks)
    (hat : At bound (c :: marks) source)
    (hf : ∀ a s, At bound marks s → marks.length + (nesting a + 1) ≤ bound → Ensures (f a) s Q) :
    Ensures (r >>= f) source Q :=
  (h c source hcode hat).bind fun a s ha => hf a s ha.1 ha.2

theorem Restores.listUntil {d : Char} (h : ∀ c, Restores bound (c :: marks) r nesting)
    (hp : Closing p d) :
    Closes bound marks (listUntil p r) fun items => deepest nesting items.1 := by
  intro c source hcode hat
  refine Ensures.loop (I := fun x s => At bound (c :: marks) s ∧
    marks.length + (deepest nesting x.1 + 1) ≤ bound) ?_ ?_
  · exact ⟨hat, hat.length_le⟩
  rintro ⟨items, comma⟩ s ⟨hat, hitems⟩
  dsimp only at hitems
  refine hat.accepts_close hcode hp (fun s hat => .pure ⟨hat, ?_⟩) ?_
  · simpa using hitems
  refine (h c).bind hat fun a s hat ha => ?_
  have hmore : marks.length + (deepest nesting (a :: items) + 1) ≤ bound := by
    rw [List.length_cons] at ha
    rw [deepest_cons]
    omega
  refine Ensures.sees ?_
  split
  · exact .pure ⟨hat, hmore⟩
  · exact hat.expect (by decide) fun s hat => .pure ⟨hat, hmore⟩

theorem Restores.manyUntil {d : Char} (h : ∀ c, Restores bound (c :: marks) r nesting)
    (hp : Closing p d) :
    Closes bound marks (manyUntil p r) (deepest nesting) := by
  intro c source hcode hat
  refine Ensures.loop (I := fun x s => At bound (c :: marks) s ∧
    marks.length + (deepest nesting x + 1) ≤ bound) ?_ ?_
  · exact ⟨hat, hat.length_le⟩
  rintro items s ⟨hat, hitems⟩
  refine hat.accepts_close hcode hp (fun s hat => .pure ⟨hat, ?_⟩) ?_
  · simpa using hitems
  refine (h c).bind hat fun a s hat ha => .pure ⟨hat, ?_⟩
  rw [List.length_cons] at ha
  rw [deepest_cons]
  omega

theorem restores_endStatement : Restores bound marks endStatement fun _ => 0 := by
  intro source hat
  refine hat.accepts (by decide) fun b s hat => ?_
  split
  · exact .pure ⟨hat, hat.length_le⟩
  · refine Ensures.get ?_
    split
    · exact .failure
    · exact .pure ⟨hat, hat.length_le⟩

/-! ### Templates -/

/-- What is left after the next token is part of a template that is open in the marks. -/
structure Templated (bound : Nat) (marks : List Char) (source : Source) : Prop where
  regular : Regular source.rest
  size : source.rest.length ≤ source.size
  reach_le : reach ('\x60' :: marks) source.rest ≤ bound

theorem At.templated (hat : At bound marks source) (ht : source.token = .backquote) :
    Templated bound marks source where
  regular := hat.regular.of_suffix hat.rest_suffix
  size := Nat.le_trans hat.rest_suffix.length_le hat.size
  reach_le := by
    have htext := eq_cons_of_readToken? (ht ▸ hat.token)
    have hreach := hat.reach_le
    rwa [htext, reach_open hat.code rfl] at hreach

theorem At.templated_of_brace (hat : At bound ('\x7b' :: '\x60' :: marks) source)
    (ht : source.token = .punct "\x7d") : Templated bound marks source where
  regular := hat.regular.of_suffix hat.rest_suffix
  size := Nat.le_trans hat.rest_suffix.length_le hat.size
  reach_le := by
    have htext := eq_append_of_readToken? (ht ▸ hat.token)
    have hreach := hat.reach_le
    rw [htext] at hreach
    exact Nat.le_trans (reach_le_close hat.code rfl) hreach

end

end Scrape.Script
