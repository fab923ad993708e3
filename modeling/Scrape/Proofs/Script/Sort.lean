import Mathlib
import Scrape.Proofs.Script.Receiver
import Scrape.Proofs.Script.Stack

/-!
# Script — Sort

Sorting an array.  Whatever says which of two items comes after the other, sorting puts each item
in turn into the sorted ones before it, which is the insertion sort of the reversed items; so if
what it says is one ranking throughout (`Tells`), the items are sorted by the ranking, and items of
equal rank keep their order (`StablySorted`).

Main statement (`sort_stable`): without a comparator the ranking is that of the texts; with one it
is the ranking that the comparator follows, whatever else it does.
-/

namespace Scrape.Script

open Run

/-! ### Rankings -/

/-- A way to rank values, by which different ones may have equal rank. -/
structure Ranking where
  /-- The first does not come after the second. -/
  le : Value → Value → Bool
  total (v w : Value) : le v w = true ∨ le w v = true
  trans {u v w : Value} : le u v = true → le v w = true → le u w = true

namespace Ranking

variable (ranking : Ranking)

/-- The ranking by something that values have, and that is ordered itself. -/
def byKey {κ : Type} [LinearOrder κ] (key : Value → κ) : Ranking where
  le v w := decide (key v ≤ key w)
  total v w := by
    rw [decide_eq_true_iff, decide_eq_true_iff]
    exact le_total (key v) (key w)
  trans huv hvw :=
    decide_eq_true ((of_decide_eq_true huv).trans (of_decide_eq_true hvw))

/-- The ranking by the texts of values, which are ordered by their characters. -/
def byText : Ranking := byKey Value.text

/-- Whether two values have equal rank. -/
def tied (v w : Value) : Bool := ranking.le v w && ranking.le w v

variable {ranking} {u v w : Value}

theorem tied_iff : ranking.tied v w = true ↔ ranking.le v w = true ∧ ranking.le w v = true :=
  Bool.and_eq_true_iff

theorem tied_self (v : Value) : ranking.tied v v = true :=
  have hle : ranking.le v v = true := (ranking.total v v).elim id id
  tied_iff.mpr ⟨hle, hle⟩

/-- Values that are tied with the same one do not come after each other. -/
theorem le_of_tied (hv : ranking.tied u v = true) (hw : ranking.tied u w = true) :
    ranking.le v w = true :=
  ranking.trans (tied_iff.mp hv).2 (tied_iff.mp hw).1

end Ranking

/-! ### Stable sorting -/

/-- The second list has the items of the first one in the order of the ranking, those of equal rank
in the order in which the first one has them. -/
structure StablySorted (ranking : Ranking) (items sorted : List Value) : Prop where
  perm : sorted.Perm items
  pairwise : sorted.Pairwise fun v w => ranking.le v w = true
  stable (v : Value) : sorted.filter (ranking.tied v) = items.filter (ranking.tied v)

section

variable {ranking : Ranking} {items sorted sorted' : List Value}

/-- There is one stable order of some items only. -/
theorem StablySorted.unique (h : StablySorted ranking items sorted)
    (h' : StablySorted ranking items sorted') : sorted = sorted' := by
  have hperm := h.perm.trans h'.perm.symm
  have hstable (v : Value) := (h.stable v).trans (h'.stable v).symm
  have hpairwise := h.pairwise
  have hpairwise' := h'.pairwise
  clear h h'
  induction sorted generalizing sorted' with
  | nil => exact hperm.nil_eq
  | cons v r ih =>
    cases sorted' with
    | nil => exact absurd hperm.eq_nil (List.cons_ne_nil v r)
    | cons w r' =>
      -- neither of the first two comes after the other, so that both are the first of their rank
      have htied : ranking.tied v w = true := by
        rw [List.pairwise_cons] at hpairwise hpairwise'
        have hw : w ∈ v :: r := hperm.mem_iff.mpr List.mem_cons_self
        have hv : v ∈ w :: r' := hperm.mem_iff.mp List.mem_cons_self
        rcases List.mem_cons.mp hw with rfl | hw
        · exact Ranking.tied_self w
        · rcases List.mem_cons.mp hv with rfl | hv
          · exact Ranking.tied_self v
          · exact Ranking.tied_iff.mpr ⟨hpairwise.1 w hw, hpairwise'.1 v hv⟩
      obtain rfl : v = w := by
        have hfirst := hstable v
        rw [List.filter_cons_of_pos (Ranking.tied_self v), List.filter_cons_of_pos htied] at hfirst
        exact (List.cons.inj hfirst).1
      refine congrArg (v :: ·)
        (ih hperm.cons_inv (fun u => ?_) hpairwise.of_cons hpairwise'.of_cons)
      have hfilter := hstable u
      rw [List.filter_cons, List.filter_cons] at hfilter
      split at hfilter
      · exact (List.cons.inj hfilter).2
      · exact hfilter

/-- The items in the order that putting each in turn into the sorted ones before it gives. -/
def Ranking.sort (ranking : Ranking) (items : List Value) : List Value :=
  (items.reverse.insertionSort fun v w => ranking.le w v = true).reverse

/-- Each item is put where none before it comes after it, so that it does not pass its equals. -/
theorem stablySorted_sort (ranking : Ranking) (items : List Value) :
    StablySorted ranking items (ranking.sort items) := by
  let after : Value → Value → Prop := fun v w => ranking.le w v = true
  have : Std.Total after := ⟨fun v w => ranking.total w v⟩
  have : IsTrans Value after := ⟨fun u v w huv hvw => ranking.trans hvw huv⟩
  have hperm : (ranking.sort items).Perm items :=
    (List.reverse_perm _).trans ((List.perm_insertionSort after _).trans items.reverse_perm)
  refine ⟨hperm, List.pairwise_reverse.mpr (List.pairwise_insertionSort after _), fun v => ?_⟩
  let tied := items.reverse.filter (ranking.tied v)
  -- the items of one rank are in order already, and so they stay a part of the list
  have hpart : tied.Sublist (items.reverse.insertionSort after) := by
    refine List.sublist_insertionSort (List.pairwise_of_forall_mem_list fun u hu w hw => ?_)
      List.filter_sublist
    exact Ranking.le_of_tied (List.mem_filter.mp hw).2 (List.mem_filter.mp hu).2
  have hsame : tied = (items.reverse.insertionSort after).filter (ranking.tied v) := by
    have hwithin := hpart.filter (ranking.tied v)
    simp only [tied, List.filter_filter, Bool.and_self] at hwithin
    exact hwithin.eq_of_length
      ((List.perm_insertionSort after items.reverse).filter _).length_eq.symm
  rw [Ranking.sort, List.filter_reverse, ← hsame, ← List.filter_reverse, List.reverse_reverse]

end

/-! ### Comparing -/

/-- Where something holds of the state, comparing two of the items tells which of them comes after
the other in the ranking, and leaves a state of which it holds; unless a step is refused. -/
def Interp.Tells (self : Interp) (comparator? : Option Value) (ranking : Ranking)
    (holds : State → Prop) (items : List Value) : Prop :=
  ∀ v ∈ items, ∀ w ∈ items, ∀ ⦃s o t⦄, holds s → (self.comesAfter comparator? v w).run s = (o, t) →
    o = .error .stepLimit ∨ o = .ok (!ranking.le v w) ∧ holds t

/-- A comparator follows a ranking of the items: where something holds of the state, a call of it
for two of them gives a value that is above zero exactly if the first comes after the second, and
leaves a state of which it holds; unless a step is refused. -/
def Interp.Follows (self : Interp) (params : List Binding) (body : Body) (ranking : Ranking)
    (holds : State → Prop) (items : List Value) : Prop :=
  ∀ v ∈ items, ∀ w ∈ items, ∀ ⦃s o t⦄, holds s → (self.call params body [v, w]).run s = (o, t) →
    o = .error .stepLimit ∨ ∃ sign : Value, o = .ok sign ∧ holds t ∧
      (Number.compare? sign.toNumber (.finite 0) = some .gt ↔ ranking.le v w = false)

/-- Among arguments there is no comparator. -/
def NoComparator (comparator? : Option Value) : Prop :=
  ∀ id params body, comparator? ≠ some (.function id params body)

section

variable {self : Interp} {comparator? : Option Value} {ranking : Ranking} {holds : State → Prop}
  {items : List Value} {s t : State}

theorem Interp.Follows.tells {id : Nat} {params : List Binding} {body : Body}
    (h : self.Follows params body ranking holds items) :
    self.Tells (some (.function id params body)) ranking holds items := by
  intro v hv w hw s o u hs hrun
  change (self.call params body [v, w] >>= _).run s = (o, u) at hrun
  cases hcall : (self.call params body [v, w]).run s with
  | mk mid t =>
    obtain rfl | ⟨sign, rfl, ht, hsign⟩ := h v hv w hw hs hcall
    · rw [run_bind_of_error hcall] at hrun
      exact .inl (Prod.mk.inj hrun).1.symm
    · rw [run_bind_of_ok hcall] at hrun
      obtain ⟨rfl, rfl⟩ := Prod.mk.inj hrun
      refine .inr ⟨congrArg Except.ok ?_, ht⟩
      rw [Bool.eq_iff_iff, Bool.not_eq_true', ← hsign, beq_iff_eq]

theorem comesAfter_of_noComparator (self : Interp) (h : NoComparator comparator?) (v w : Value) :
    self.comesAfter comparator? v w = (do tick; return compareText v.text w.text == .gt) := by
  unfold Interp.comesAfter
  split
  · exact absurd rfl (h _ _ _)
  · rfl

theorem compareText_eq_gt (s t : String) : (compareText s t == .gt) = !decide (s ≤ t) := by
  rw [Bool.eq_iff_iff, Bool.not_eq_true', decide_eq_false_iff_not, not_le, beq_iff_eq, compareText]
  split
  · rename_i hlt
    exact ⟨fun h => absurd h (by decide), fun h => absurd h hlt.asymm⟩
  · rename_i hge
    split
    · rename_i heq
      exact ⟨fun h => absurd h (by decide), fun h => absurd heq h.ne'⟩
    · rename_i hne
      exact ⟨fun _ => lt_of_le_of_ne (not_lt.mp hge) (Ne.symm hne), fun _ => rfl⟩

theorem run_comesAfter_of_lt (h : NoComparator comparator?) (hs : s.steps < s.limit) (v w : Value) :
    (self.comesAfter comparator? v w).run s = (.ok (!Ranking.byText.le v w), stepped s) := by
  rw [comesAfter_of_noComparator self h, run_bind_of_ok (run_tick_of_lt hs), compareText_eq_gt]
  rfl

theorem tells_byText (h : NoComparator comparator?) :
    self.Tells comparator? .byText (fun _ => True) items := by
  intro v _ w _ s o t _ hrun
  rcases Nat.lt_or_ge s.steps s.limit with hlt | hge
  · rw [run_comesAfter_of_lt h hlt] at hrun
    exact .inr ⟨(Prod.mk.inj hrun).1.symm, trivial⟩
  · rw [comesAfter_of_noComparator self h, run_bind_of_error (run_tick_of_le hge)] at hrun
    exact .inl (Prod.mk.inj hrun).1.symm

/-! ### Runs of the sort -/

/-- What comes after a run that gives one value, unless a step is refused. -/
theorem refused_or_run_bind {α β : Type} {m : Run α} {f : α → Run β} {a : α}
    (hm : ∀ ⦃o t⦄, m.run s = (o, t) → o = .error .stepLimit ∨ o = .ok a ∧ holds t)
    {o : Except Failure β} (hrun : (m >>= f).run s = (o, t)) :
    o = .error .stepLimit ∨ ∃ mid, m.run s = (.ok a, mid) ∧ holds mid ∧ (f a).run mid = (o, t) := by
  cases hfirst : m.run s with
  | mk o' mid =>
    obtain rfl | ⟨rfl, hmid⟩ := hm hfirst
    · rw [run_bind_of_error hfirst] at hrun
      exact .inl (Prod.mk.inj hrun).1.symm
    · rw [run_bind_of_ok hfirst] at hrun
      exact .inr ⟨mid, rfl, hmid, hrun⟩

/-- An item is put into the sorted ones by the ranking. -/
theorem run_insertSorted (h : self.Tells comparator? ranking holds items) {item : Value}
    (hitem : item ∈ items) {rev : List Value} (hrev : ∀ v ∈ rev, v ∈ items) (passed : List Value)
    {o : Except Failure (List Value)} (hs : holds s)
    (hrun : (self.insertSorted comparator? item passed rev).run s = (o, t)) :
    o = .error .stepLimit ∨
      o = .ok (passed.reverse ++ rev.orderedInsert (fun v w => ranking.le w v = true) item) ∧
        holds t := by
  induction rev generalizing passed s with
  | nil =>
    obtain ⟨rfl, rfl⟩ := Prod.mk.inj hrun
    exact .inr ⟨rfl, hs⟩
  | cons last r ih =>
    obtain ⟨hlast, hr⟩ := List.forall_mem_cons.mp hrev
    obtain hstep | ⟨u, -, hu, hrun⟩ :=
      refused_or_run_bind (fun _ _ => h last hlast item hitem hs) hrun
    · exact .inl hstep
    · rw [List.orderedInsert_cons]
      cases hle : ranking.le last item with
      | true =>
        rw [hle] at hrun
        obtain ⟨rfl, rfl⟩ := Prod.mk.inj hrun
        exact .inr ⟨rfl, hu⟩
      | false =>
        -- the item passes the last one, and goes on before it
        rw [hle] at hrun
        have hrest := ih hr (last :: passed) hu hrun
        rw [List.reverse_cons, List.append_assoc] at hrest
        exact hrest

theorem run_sortInto (h : self.Tells comparator? ranking holds items) {rev rest : List Value}
    (hrev : ∀ v ∈ rev, v ∈ items) (hrest : ∀ v ∈ rest, v ∈ items)
    {o : Except Failure (List Value)} (hs : holds s)
    (hrun : (self.sortInto comparator? rev rest).run s = (o, t)) :
    o = .error .stepLimit ∨
      o = .ok (rest.foldl (fun rev item =>
        rev.orderedInsert (fun v w => ranking.le w v = true) item) rev).reverse ∧ holds t := by
  induction rest generalizing rev s with
  | nil =>
    obtain ⟨rfl, rfl⟩ := Prod.mk.inj hrun
    exact .inr ⟨rfl, hs⟩
  | cons item rest ih =>
    obtain ⟨hitem, hrest⟩ := List.forall_mem_cons.mp hrest
    obtain hstep | ⟨u, -, hu, hrun⟩ :=
      refused_or_run_bind (fun _ _ => run_insertSorted h hitem hrev [] hs) hrun
    · exact .inl hstep
    · refine ih (fun v hv => ?_) hrest hu hrun
      rcases (List.mem_orderedInsert _).mp hv with rfl | hv
      · exact hitem
      · exact hrev v hv

/-- The items are sorted by the ranking, unless a step is refused. -/
theorem run_sort (h : self.Tells comparator? ranking holds items)
    {o : Except Failure (List Value)} (hs : holds s)
    (hrun : (self.sort comparator? items).run s = (o, t)) :
    o = .error .stepLimit ∨ o = .ok (ranking.sort items) ∧ holds t := by
  rw [Ranking.sort, List.insertionSort, List.foldr_reverse]
  exact run_sortInto h (fun v hv => absurd hv List.not_mem_nil) (fun v hv => hv) hs hrun

/-! ### Steps of the sort -/

/-- Without a comparator, an item is compared with each of the sorted ones once at most. -/
theorem exists_run_insertSorted (self : Interp) (h : NoComparator comparator?) (item : Value)
    (passed : List Value) {rev : List Value} (hsteps : s.steps + rev.length ≤ s.limit) :
    ∃ l t, (self.insertSorted comparator? item passed rev).run s = (.ok l, t) ∧
      l.length = passed.length + rev.length + 1 ∧ t.steps ≤ s.steps + rev.length ∧
      t.limit = s.limit := by
  induction rev generalizing passed s with
  | nil => exact ⟨_, s, rfl, by simp, Nat.le_refl _, rfl⟩
  | cons last r ih =>
    rw [List.length_cons] at hsteps ⊢
    have hcompare : (self.comesAfter comparator? last item).run s =
        (.ok (!Ranking.byText.le last item), stepped s) :=
      run_comesAfter_of_lt h (by omega) last item
    cases hle : Ranking.byText.le last item with
    | true =>
      rw [hle] at hcompare
      refine ⟨_, stepped s, (run_bind_of_ok hcompare).trans rfl, ?_, ?_, rfl⟩
      · simp only [List.length_append, List.length_reverse, List.length_cons]
        omega
      · change s.steps + 1 ≤ _
        omega
    | false =>
      rw [hle] at hcompare
      have hleft : (stepped s).steps + r.length ≤ (stepped s).limit := by
        change s.steps + 1 + r.length ≤ s.limit
        omega
      obtain ⟨l, t, hrun, hlength, ht, hlimit⟩ := ih (last :: passed) hleft
      refine ⟨l, t, (run_bind_of_ok hcompare).trans hrun, ?_, ?_, hlimit⟩
      · rw [hlength, List.length_cons]
        omega
      · change t.steps ≤ s.steps + 1 + r.length at ht
        omega

theorem exists_run_sortInto (self : Interp) (h : NoComparator comparator?) {rev rest : List Value}
    (hsteps : s.steps + ∑ i ∈ Finset.range rest.length, (rev.length + i) ≤ s.limit) :
    ∃ l t, (self.sortInto comparator? rev rest).run s = (.ok l, t) := by
  induction rest generalizing rev s with
  | nil => exact ⟨_, s, rfl⟩
  | cons item rest ih =>
    rw [List.length_cons, Finset.sum_range_succ', Nat.add_zero] at hsteps
    have hinsertSteps : s.steps + rev.length ≤ s.limit := by omega
    obtain ⟨l, t, hinsert, hlength, ht, hlimit⟩ :=
      exists_run_insertSorted self h item [] hinsertSteps
    have hleft : t.steps + ∑ i ∈ Finset.range rest.length, (l.length + i) ≤ t.limit := by
      rw [List.length_nil, Nat.zero_add] at hlength
      simp only [hlength, hlimit, Nat.add_assoc, Nat.add_comm 1]
      omega
    obtain ⟨l', t', hrun⟩ := ih hleft
    exact ⟨l', t', (run_bind_of_ok hinsert).trans hrun⟩

/-- Without a comparator, sorting takes no more steps than there are pairs of items. -/
theorem exists_run_sort (self : Interp) (h : NoComparator comparator?) (items : List Value)
    (hsteps : s.steps + items.length * (items.length - 1) / 2 ≤ s.limit) :
    ∃ l t, (self.sort comparator? items).run s = (.ok l, t) := by
  refine exists_run_sortInto self h ?_
  simp only [List.length_nil, Nat.zero_add, Finset.sum_range_id]
  exact hsteps

end

/-! ### Calls of the method -/

/-- The call of the method that sorts on a variable. -/
def sortCall (a : String) (args : List Expr) : Expr :=
  .call (.member (.name a) (.text "sort")) args

/-- The array of the items in their stable order is given, and the variable holds it. -/
def GivesSorted (ranking : Ranking) (a : String) (items : List Value) (o : Except Failure Value)
    (u : State) : Prop :=
  ∃ sorted, StablySorted ranking items sorted ∧ o = .ok (.array sorted) ∧
    u.lookup? a = some (.array sorted)

variable {a : String} {items values : List Value} {args : List Expr} {depth : Nat} {s t u : State}

/-- The items are sorted after the arguments have been evaluated, and the variable is set. -/
theorem run_eval_sortCall (hs : s.lookup? a = some (.array items))
    (hargs : ((interp put (depth + 1)).evalItems [] args).run s = (.ok values, t)) :
    ((interp put (depth + 2)).eval (sortCall a args)).run s =
      (do
        let sorted ← (interp put (depth + 1)).sort values.head? items
        setVar false a (.array sorted)
        return Value.array sorted).run t := by
  rw [sortCall, run_eval_arrayCall hs hargs]
  let sorting : Run Reply := do
    let sorted ← (interp put (depth + 1)).sort values.head? items
    return .changing (.array sorted) sorted
  have hmethod : (interp put (depth + 1)).arrayMethod items "sort" values = sorting := if_pos rfl
  rw [hmethod]
  cases hsort : ((interp put (depth + 1)).sort values.head? items).run t with
  | mk o u =>
    cases o with
    | error f =>
      rw [run_bind_of_error hsort]
      have hreply : sorting.run t = (.error f, u) := run_bind_of_error hsort _
      exact run_bind_of_error hreply _
    | ok sorted =>
      rw [run_bind_of_ok hsort]
      have hreply : sorting.run t = (.ok (.changing (.array sorted) sorted), u) :=
        run_bind_of_ok hsort
      exact run_bind_of_ok hreply

/-- Whatever the comparing does to the variable, it holds the sorted items then. -/
theorem givesSorted_of_tells {ranking : Ranking} {holds : State → Prop}
    (hs : s.lookup? a = some (.array items))
    (hargs : ((interp put (depth + 1)).evalItems [] args).run s = (.ok values, t))
    (htells : (interp put (depth + 1)).Tells values.head? ranking holds items) (ht : holds t)
    {o : Except Failure Value}
    (hrun : ((interp put (depth + 2)).eval (sortCall a args)).run s = (o, u))
    (ho : o ≠ .error .stepLimit) : GivesSorted ranking a items o u := by
  rw [run_eval_sortCall hs hargs] at hrun
  obtain hstep | ⟨v, hsort, -, hrun⟩ := refused_or_run_bind (fun _ _ => run_sort htells ht) hrun
  · exact absurd hstep ho
  · obtain ⟨rfl, rfl⟩ := Prod.mk.inj hrun
    -- a comparator may set the variable, but there are as many scopes as before
    have hkept := (((alike_guarded (depth + 1)).sort values.head? items).1 hsort).1
    have hne : v.scopes ≠ [] := fun hnil =>
      scopes_ne_nil_evalItems hs hargs (List.eq_nil_of_length_eq_zero
        (hkept.scopes.length_eq.symm.trans (congrArg List.length hnil)))
    exact ⟨_, stablySorted_sort ranking items, rfl, lookup?_setVar_self hne a _⟩

/-- **Sorting is stable.**  On a variable that holds an array, if the arguments of a call of the
method that sorts are evaluated, then, unless a step is refused, the call gives the items of the
array in their stable order, of which there is one only, and the variable holds them.  Without a
comparator they are ordered by their texts, and no step is refused if there are as many left as
there are pairs of items.  With a comparator they are ordered by any ranking that it follows in the
states that the sort comes to, whatever else it does in them. -/
theorem sort_stable (hs : s.lookup? a = some (.array items))
    (hargs : ((interp put (depth + 1)).evalItems [] args).run s = (.ok values, t))
    {o : Except Failure Value}
    (hrun : ((interp put (depth + 2)).eval (sortCall a args)).run s = (o, u)) :
    (NoComparator values.head? →
      (o ≠ .error .stepLimit → GivesSorted .byText a items o u) ∧
      (t.steps + items.length * (items.length - 1) / 2 ≤ t.limit → o ≠ .error .stepLimit)) ∧
    (∀ {id params body} (ranking : Ranking) (holds : State → Prop),
      values.head? = some (.function id params body) →
      (interp put (depth + 1)).Follows params body ranking holds items → holds t →
        o ≠ .error .stepLimit → GivesSorted ranking a items o u) ∧
    ∀ (ranking : Ranking) (sorted sorted' : List Value), StablySorted ranking items sorted →
      StablySorted ranking items sorted' → sorted = sorted' := by
  refine ⟨fun hnone => ⟨givesSorted_of_tells hs hargs (tells_byText hnone) trivial hrun,
    fun hsteps ho => ?_⟩, fun ranking holds hhead hfollows => ?_, fun _ _ _ => StablySorted.unique⟩
  · obtain ⟨sorted, v, hsort⟩ := exists_run_sort (interp put (depth + 1)) hnone items hsteps
    rw [run_eval_sortCall hs hargs, run_bind_of_ok hsort, ho] at hrun
    cases hrun
  · refine fun ht => givesSorted_of_tells hs hargs ?_ ht hrun
    rw [hhead]
    exact hfollows.tells

/-! Texts that are sorted without a comparator and by their lengths. -/

/-- Texts of which two have the same length. -/
def words : List String := ["ca", "b", "ab"]

/-- The state before a run on an array of texts. -/
def beforeSorting : State := .initial (.array (words.map .string)) none Session.empty 100

/-- The difference of the lengths of two parameters. -/
def lengthDifference : Body :=
  .expr (.binary .sub (.member (.name "a") (.text "length")) (.member (.name "b") (.text "length")))

/-- The comparator that gives the difference. -/
def lengthComparator : Expr :=
  .arrow [.name "a", .name "b"]
    (.binary .sub (.member (.name "a") (.text "length")) (.member (.name "b") (.text "length")))

/-- The ranking by the lengths of texts. -/
def byLength : Ranking := .byKey fun v => v.text.length

theorem difference_pos_iff :
    ∀ x ∈ words, ∀ y ∈ words,
      Number.compare? ((Number.ofNat x.length).sub (.ofNat y.length)) (.finite 0) = some .gt ↔
        byLength.le (.string x) (.string y) = false := by
  decide +kernel

/-- Where calls do not nest too deep, the comparator follows the ranking by length. -/
theorem follows_lengthDifference :
    (interp put 8).Follows [.name "a", .name "b"] lengthDifference byLength
      (fun s => s.depth < maxCallDepth) (words.map .string) := by
  intro v hv w hw s o t hdepth hrun
  obtain ⟨x, hx, rfl⟩ := List.mem_map.mp hv
  obtain ⟨y, hy, rfl⟩ := List.mem_map.mp hw
  have hkept := (keepsStack_interp 8).call [.name "a", .name "b"] lengthDifference
    [.string x, .string y] s
  rw [hrun] at hkept
  rw [call_succ_eq] at hrun
  rcases Nat.lt_or_ge s.steps s.limit with hsteps | hsteps
  · rw [run_inCall_of_lt hsteps hdepth] at hrun
    refine .inr ⟨.number ((Number.ofNat x.length).sub (.ofNat y.length)),
      (Prod.mk.inj hrun).1.symm, ?_, difference_pos_iff x hx y hy⟩
    exact hkept.depth_eq.trans_lt hdepth
  · rw [run_inCall_of_le hsteps] at hrun
    exact .inl (Prod.mk.inj hrun).1.symm

theorem sort_stable_words :
    beforeSorting.lookup? "result" = some (.array (words.map .string)) ∧
    (∃ u, ((interp put 9).eval (sortCall "result" [])).run beforeSorting =
        (.ok (.array (["ab", "b", "ca"].map .string)), u) ∧
      GivesSorted .byText "result" (words.map .string)
        (.ok (.array (["ab", "b", "ca"].map .string))) u) ∧
    ∃ o u, ((interp put 9).eval (sortCall "result" [lengthComparator])).run beforeSorting = (o, u) ∧
      GivesSorted byLength "result" (words.map .string) o u := by
  have hs : beforeSorting.lookup? "result" = some (.array (words.map .string)) := rfl
  have hrun : ((interp put 9).eval (sortCall "result" [])).run beforeSorting =
      (.ok (.array (["ab", "b", "ca"].map .string)), _) := rfl
  have hargs : ((interp put 8).evalItems [] []).run beforeSorting = (.ok [], beforeSorting) := rfl
  have hargs' : ((interp put 8).evalItems [] [lengthComparator]).run beforeSorting =
      (.ok [.function 0 [.name "a", .name "b"] lengthDifference], _) := rfl
  have hok : (((interp put 9).eval (sortCall "result" [lengthComparator])).run
      beforeSorting).1.isOk = true := by decide +kernel
  obtain ⟨⟨o, u⟩, hrun'⟩ : ∃ ending, ((interp put 9).eval
      (sortCall "result" [lengthComparator])).run beforeSorting = ending := ⟨_, rfl⟩
  rw [hrun'] at hok
  refine ⟨hs, ⟨_, hrun, ?_⟩, o, u, hrun', ?_⟩
  · refine ((sort_stable hs hargs hrun).1 fun _ _ _ h => ?_).1 fun h => ?_
    · cases h
    · cases h
  · refine (sort_stable hs hargs' hrun').2.1 byLength (fun s => s.depth < maxCallDepth) rfl
      follows_lengthDifference (by decide) fun h => ?_
    subst h
    cases hok

end Scrape.Script
