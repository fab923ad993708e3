import Scrape.XPath.Parser

/-!
# XPath — Reading, its laws

What the reader of paths gives.  Places in predicates are counted from one: a number in square
brackets is read as a place if it is positive, and no other predicate is a place.

Main statement (`countsFromOne_of_parse`): every step of a query that is read counts from one.
-/

namespace Scrape.XPath

/-- No predicate of the step asks for a place before the first. -/
def Step.CountsFromOne (step : Step) : Prop := .position 0 ∉ step.predicates

/-- A predicate that is read asks for no place before the first. -/
theorem predicate?_ne_position_zero (s : List Char) : predicate? s ≠ some (.position 0) := by
  intro h
  simp only [predicate?] at h
  split at h
  · -- a number, which is read only if it is positive
    obtain ⟨n, hn, heq⟩ := Option.map_eq_some_iff.mp h
    cases heq
    exact absurd (Option.filter_eq_some_iff.mp hn).2 (by decide)
  · split at h
    · cases h
    · split at h
      · obtain ⟨x, -, heq⟩ := Option.map_eq_some_iff.mp h
        cases heq
      · obtain ⟨x, -, heq⟩ := Option.map_eq_some_iff.mp h
        cases heq
      · split at h
        · cases h
        · obtain ⟨x, -, heq⟩ := Option.map_eq_some_iff.mp h
          cases heq
        · cases h

theorem position_zero_notMem_of_predicates? {fuel : Nat} {s : List Char} {ps : List Predicate}
    (h : predicates? fuel s = some ps) : .position 0 ∉ ps := by
  fun_induction predicates? fuel s generalizing ps with
  | case1 fuel =>
    obtain rfl := Option.some.inj h
    exact List.not_mem_nil
  | case2 fuel s ih =>
    simp only [Option.bind_eq_bind, Option.bind_eq_some_iff, Option.pure_def,
      Option.some.injEq] at h
    obtain ⟨⟨inside, rest⟩, -, p, hp, ps', hps, rfl⟩ := h
    rw [List.mem_cons, not_or]
    exact ⟨fun heq => predicate?_ne_position_zero inside (heq ▸ hp), ih _ hps⟩
  | case3 => cases h

theorem countsFromOne_of_step? {axis : Axis} {s : List Char} {step : Step}
    (h : step? axis s = some step) : step.CountsFromOne := by
  simp only [step?, Option.bind_eq_bind, Option.bind_eq_some_iff, Option.pure_def,
    Option.some.injEq] at h
  obtain ⟨test, -, ps, hps, rfl⟩ := h
  exact position_zero_notMem_of_predicates? hps

theorem countsFromOne_of_steps? {fuel : Nat} {acc steps : List Step} {s : List Char}
    (h : steps? fuel acc s = some steps) (hacc : ∀ step ∈ acc, step.CountsFromOne) :
    ∀ step ∈ steps, step.CountsFromOne := by
  induction fuel generalizing acc s with
  | zero =>
    cases s with
    | nil =>
      obtain rfl := Option.some.inj h
      simpa using hacc
    | cons c s => cases h
  | succ fuel ih =>
    cases s with
    | nil =>
      obtain rfl := Option.some.inj h
      simpa using hacc
    | cons c s =>
      simp only [steps?, Option.bind_eq_bind, Option.bind_eq_some_iff] at h
      obtain ⟨⟨axis, rest⟩, -, h⟩ := h
      split at h
      · cases h
      · obtain ⟨step, hstep, h⟩ := Option.bind_eq_some_iff.mp h
        refine ih h fun x hx => ?_
        rcases List.mem_cons.mp hx with rfl | hx
        · exact countsFromOne_of_step? hstep
        · exact hacc x hx

theorem countsFromOne_of_path? {s : List Char} {path : Path} (h : path? s = some path) :
    ∀ step ∈ path.steps, step.CountsFromOne := by
  simp only [path?] at h
  split at h
  · cases h
  · obtain ⟨steps, hsteps, rfl⟩ := Option.map_eq_some_iff.mp h
    exact countsFromOne_of_steps? hsteps nofun

theorem exists_mem_of_mem_mapM {α β ε : Type} {f : α → Except ε β} {l : List α} {r : List β}
    {b : β} (h : l.mapM f = .ok r) (hb : b ∈ r) : ∃ a ∈ l, f a = .ok b := by
  induction l generalizing r with
  | nil =>
    obtain rfl : [] = r := Except.ok.inj h
    cases hb
  | cons a l ih =>
    rw [List.mapM_cons] at h
    cases hfirst : f a with
    | error e =>
      rw [hfirst] at h
      cases h
    | ok x =>
      cases hrest : l.mapM f with
      | error e =>
        rw [hfirst, hrest] at h
        cases h
      | ok xs =>
        rw [hfirst, hrest] at h
        obtain rfl : x :: xs = r := Except.ok.inj h
        rcases List.mem_cons.mp hb with rfl | hb
        · exact ⟨a, List.mem_cons_self, hfirst⟩
        · obtain ⟨y, hy, hfy⟩ := ih hrest hb
          exact ⟨y, List.mem_cons_of_mem a hy, hfy⟩

/-- The path of a text between bars, or the error that it is none. -/
def readPath (p : List Char) : Except ParseError Path :=
  match path? p with
  | some path => .ok path
  | none      => .error ⟨p⟩

theorem Query.parse_eq (s : List Char) :
    Query.parse s = ((Rule.split [['|']] s).mapM readPath).bind fun paths => .ok ⟨paths⟩ := rfl

theorem path?_of_readPath {p : List Char} {path : Path} (h : readPath p = .ok path) :
    path? p = some path := by
  rw [readPath] at h
  split at h
  next path' hread => rw [hread, Except.ok.inj h]
  next => cases h

/-- **Every step of a query that is read** counts places from one. -/
theorem countsFromOne_of_parse {s : List Char} {q : Query} (h : Query.parse s = .ok q) :
    ∀ path ∈ q.paths, ∀ step ∈ path.steps, step.CountsFromOne := by
  rw [Query.parse_eq] at h
  cases hpaths : (Rule.split [['|']] s).mapM readPath with
  | error e =>
    rw [hpaths] at h
    cases h
  | ok paths =>
    rw [hpaths] at h
    obtain rfl : Query.mk paths = q := Except.ok.inj h
    intro path hpath
    obtain ⟨p, -, hp⟩ := exists_mem_of_mem_mapM hpaths hpath
    exact countsFromOne_of_path? (path?_of_readPath hp)

end Scrape.XPath
