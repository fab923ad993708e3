import Scrape.Proofs.Json.Distinct
import Scrape.Proofs.Json.Loose
import Scrape.Proofs.Json.Rewriting

/-!
# Json — Braced

Fields in braces, with keys without quotes and values in quotes of one kind.  The rewritings act on
each value by itself (`strict_braced`).  If a value holds a key without quotes, then this key comes
to stand in quotes, and these end the value too early, so the text is no JSON.  Else the text is the
object that it looks like, but for the commas that its values lose.

Main statement (`parse?_braced_of_holdsBareKey`, `parse?_braced_of_not_holdsBareKey`): what fields in
braces are read as, in these two cases.
-/

namespace Scrape.Json

open Scrape.Text (isBlank isWordChar)

/-! ### The texts -/

/-- A key and a value as they are written. -/
abbrev Written := List Char × List Char

/-- A key, and a value in quotes of one kind. -/
def quotedField (quote : Char) (f : Written) : List Char :=
  f.1 ++ ':' :: ' ' :: quote :: (f.2 ++ [quote])

/-- A key in quotes, and a value in quotes. -/
def strictField (f : Written) : List Char :=
  '"' :: (f.1 ++ '"' :: ':' :: ' ' :: '"' :: (f.2 ++ ['"']))

/-- Fields in braces, each written in one way, with a comma and a space between two. -/
def braced (write : Written → List Char) (fields : List Written) : List Char :=
  '\x7b' :: ([',', ' '].intercalate (fields.map write) ++ ['\x7d'])

/-- What follows a field: the other fields, and the brace that closes them. -/
def following (write : Written → List Char) : List Written → List Char
  | []          => ['\x7d']
  | f :: fields => ',' :: ' ' :: (write f ++ following write fields)

theorem braced_cons (write : Written → List Char) (f : Written) (fields : List Written) :
    braced write (f :: fields) = '\x7b' :: (write f ++ following write fields) := by
  rw [braced, List.cons.injEq]
  refine ⟨rfl, ?_⟩
  induction fields generalizing f with
  | nil => simp [following]
  | cons g fields ih =>
    rw [List.map_cons, List.map_cons, List.intercalate_cons_cons, ← List.map_cons,
      List.append_assoc, List.append_assoc, ih g]
    rfl

theorem braced_map (write : Written → List Char) (g : Written → Written) (fields : List Written) :
    braced write (fields.map g) = braced (write ∘ g) fields := by
  rw [braced, braced, List.map_map]

/-- A rewriting that acts on each field by itself, and keeps what stands between two. -/
theorem rewrite_braced {write write' : Written → List Char} {rewrite : List Char → List Char}
    {fields : List Written} (hne : fields ≠ []) (hlast : rewrite ['\x7d'] = ['\x7d'])
    (hfield : ∀ f ∈ fields, ∀ lead ∈ [['\x7b'], [',', ' ']], ∀ rest,
      rewrite (lead ++ (write f ++ following write rest)) =
        lead ++ (write' f ++ rewrite (following write rest))) :
    rewrite (braced write fields) = braced write' fields := by
  have hfollowing : ∀ {fs : List Written}, (∀ f ∈ fs, f ∈ fields) →
      rewrite (following write fs) = following write' fs := by
    intro fs hfs
    induction fs with
    | nil => exact hlast
    | cons f fs ih =>
      rw [List.forall_mem_cons] at hfs
      have h := hfield f hfs.1 [',', ' '] (by simp) fs
      rw [ih hfs.2] at h
      exact h
  obtain ⟨f, fs, rfl⟩ := List.exists_cons_of_ne_nil hne
  rw [braced_cons, braced_cons, ← hfollowing fun g hg => List.mem_cons_of_mem f hg]
  exact hfield f List.mem_cons_self ['\x7b'] (by simp) fs

/-- A text that stands in quotes as it is: one without quotes, backslashes and control
characters. -/
def Quotable (s : List Char) : Prop := ∀ c ∈ s, c ∉ ['"', '\'', '\\'] ∧ ¬ c.toNat < 32

instance : DecidablePred Quotable := fun s =>
  List.decidableBAll (fun c : Char => c ∉ ['"', '\'', '\\'] ∧ ¬ c.toNat < 32) s

theorem Quotable.of_subset {s t : List Char} (h : Quotable t) (hs : s ⊆ t) : Quotable s :=
  fun c hc => h c (hs hc)

theorem Quotable.readable {s : List Char} (h : Quotable s) :
    ∀ c ∈ s, c ≠ '"' ∧ c ≠ '\\' ∧ ¬ c.toNat < 32 := by
  intro c hc
  obtain ⟨hmarks, hprint⟩ := h c hc
  simp only [List.mem_cons, not_or] at hmarks
  exact ⟨hmarks.1, hmarks.2.2.1, hprint⟩

theorem IsKey.quotable {key : List Char} (h : IsKey key) : Quotable key := by
  intro c hc
  refine ⟨fun hmem => h.bare c hc ?_, not_control_of_isWordChar (h.word c hc)⟩
  simp only [List.mem_cons, List.not_mem_nil, or_false] at hmem ⊢
  tauto

/-- A text of ASCII letters is a key. -/
theorem IsKey.of_isAsciiLetter {key : List Char} (hne : key ≠ [])
    (h : ∀ c ∈ key, Text.isAsciiLetter c = true) : IsKey key := by
  have hbounds : ∀ c ∈ key, 65 ≤ c.toNat ∧ c.toNat ≤ 122 := by
    intro c hc
    have hletter := h c hc
    simp only [Text.isAsciiLetter, Bool.or_eq_true, Bool.and_eq_true, decide_eq_true_eq,
      Char.le_def, UInt32.le_iff_toNat_le] at hletter
    have : 'a'.val.toNat = 97 ∧ 'z'.val.toNat = 122 ∧ 'A'.val.toNat = 65 ∧ 'Z'.val.toNat = 90 := by
      decide
    rw [Char.toNat]
    omega
  refine ⟨hne, fun c hc => ?_, fun c hc => ?_⟩
  · have hascii : Text.isAscii c = true := by
      have := hbounds c hc
      rw [Text.isAscii, decide_eq_true_eq]
      omega
    rw [isWordChar, if_pos hascii, h c hc]
    rfl
  · have := hbounds c hc
    simp only [isBlank, Bool.or_eq_false_iff, Bool.and_eq_false_iff, beq_eq_false_iff_ne,
      decide_eq_false_iff_not]
    omega

/-! ### The form of JSON -/

namespace Loose

section

variable {fields : List Written}

/-- Quotes of both kinds become double quotes. -/
theorem map_braced {quote : Char} (hquote : quote = '"' ∨ quote = '\'') (hne : fields ≠ [])
    (hfields : ∀ f ∈ fields, IsKey f.1 ∧ Quotable f.2) :
    (braced (quotedField quote) fields).map (fun c => if c = '\'' then '"' else c) =
      braced (quotedField '"') fields := by
  have hkept : ∀ {s : List Char}, Quotable s →
      s.map (fun c => if c = '\'' then '"' else c) = s := by
    intro s hs
    refine (List.map_congr_left fun c hc => ?_).trans (List.map_id s)
    have hne : c ≠ '\'' := fun h => (hs c hc).1 (by rw [h]; decide)
    exact if_neg hne
  have hmark : (if quote = '\'' then '"' else quote) = '"' := by
    rcases hquote with rfl | rfl
    all_goals decide
  refine rewrite_braced hne rfl fun f hf lead hlead rest => ?_
  have hleadkept : lead.map (fun c => if c = '\'' then '"' else c) = lead := by
    simp only [List.mem_cons, List.not_mem_nil, or_false] at hlead
    rcases hlead with rfl | rfl
    all_goals decide
  obtain ⟨hkey, hvalue⟩ := hfields f hf
  simp [quotedField, hkept hkey.quotable, hkept hvalue, hmark, hleadkept]

/-- A comma between two fields stands before no closing bracket. -/
theorem dropCommas_braced (hne : fields ≠ []) (hkeys : ∀ f ∈ fields, IsKey f.1) :
    dropCommas (braced (quotedField '"') fields) =
      braced (quotedField '"') (fields.map (Prod.map id dropCommas)) := by
  rw [braced_map]
  refine rewrite_braced hne rfl fun f hf lead hlead rest => ?_
  have hkey := hkeys f hf
  have hfield : dropCommas (quotedField '"' f ++ following (quotedField '"') rest) =
      quotedField '"' (f.1, dropCommas f.2) ++ dropCommas (following (quotedField '"') rest) := by
    have hvalue := dropCommas_append (c := '"') (by decide) (by decide) (by decide) f.2
    simp only [quotedField, List.append_assoc, List.cons_append, List.nil_append]
    rw [dropCommas_append_of_not_mem (hkey.bare.not_mem (by decide)),
      dropCommas_cons_of_ne (by decide), dropCommas_cons_of_ne (by decide),
      dropCommas_cons_of_ne (by decide), hvalue]
  have hopen : closesNext (' ' :: (quotedField '"' f ++ following (quotedField '"') rest)) =
      false := by
    obtain ⟨c, key, hc⟩ := List.exists_cons_of_ne_nil hkey.ne_nil
    have hmem : c ∈ f.1 := by rw [hc]; exact List.mem_cons_self
    have hspace : isBlank ' ' = true := by decide
    have hcloses : closes c = false := by
      rw [closes, Bool.or_eq_false_iff, decide_eq_false_iff_not, decide_eq_false_iff_not]
      constructor
      all_goals
        rintro rfl
        exact absurd (hkey.word _ hmem) (by decide)
    simp [closesNext, quotedField, hc, hkey.blank c hmem, hspace, hcloses]
  simp only [List.mem_cons, List.not_mem_nil, or_false] at hlead
  rcases hlead with rfl | rfl
  · rw [List.cons_append, dropCommas_cons_of_ne (by decide), List.nil_append, hfield]
    rfl
  · rw [List.cons_append, List.cons_append, List.nil_append, dropCommas_comma_of_not hopen,
      dropCommas_cons_of_ne (by decide), hfield]
    rfl

theorem readKey?_space (s : List Char) :
    readKey? (' ' :: s) = (readKey? s).map fun found => (' ' :: found.1, found.2) := by
  have hblank : isBlank ' ' = true := by decide
  simp only [readKey?, List.span_eq_takeWhile_dropWhile, List.takeWhile_cons, List.dropWhile_cons,
    hblank, if_true]
  split
  · rfl
  · split <;> rfl

/-- The keys come to stand in quotes, and so does what looks like a key in a value. -/
theorem quoteKeys_braced (hne : fields ≠ []) (hkeys : ∀ f ∈ fields, IsKey f.1) :
    quoteKeys (braced (quotedField '"') fields) =
      braced strictField (fields.map (Prod.map id quoteKeys)) := by
  rw [braced_map]
  refine rewrite_braced hne rfl fun f hf lead hlead rest => ?_
  have hkey := readKey?_field (hkeys f hf)
    (' ' :: '"' :: (f.2 ++ '"' :: following (quotedField '"') rest))
  have hvalue : quoteKeys (' ' :: '"' :: (f.2 ++ '"' :: following (quotedField '"') rest)) =
      ' ' :: '"' :: (quoteKeys f.2 ++ '"' :: quoteKeys (following (quotedField '"') rest)) := by
    rw [quoteKeys_cons_of_not (.inl (by decide)), quoteKeys_cons_of_not (.inl (by decide)),
      quoteKeys_append (by decide) (by decide) (by decide) (by decide)]
  simp only [List.mem_cons, List.not_mem_nil, or_false] at hlead
  rcases hlead with rfl | rfl
  · simp only [quotedField, List.append_assoc, List.cons_append, List.nil_append]
    rw [quoteKeys_cons_of_key (by decide) hkey, hvalue]
    simp [strictField]
  · have hread := readKey?_space
      (f.1 ++ ':' :: ' ' :: '"' :: (f.2 ++ '"' :: following (quotedField '"') rest))
    rw [hkey] at hread
    simp only [quotedField, List.append_assoc, List.cons_append, List.nil_append]
    rw [quoteKeys_cons_of_key (by decide) hread, hvalue]
    simp [strictField]

/-- **The form of JSON** of fields in braces has the keys in quotes and each value rewritten by
itself. -/
theorem strict_braced {quote : Char} (hquote : quote = '"' ∨ quote = '\'') (hne : fields ≠ [])
    (hfields : ∀ f ∈ fields, IsKey f.1 ∧ Quotable f.2) :
    strict (braced (quotedField quote) fields) =
      braced strictField (fields.map (Prod.map id fun value => quoteKeys (dropCommas value))) := by
  have hkeys : ∀ f ∈ fields.map (Prod.map id dropCommas), IsKey f.1 := by
    intro f hf
    obtain ⟨g, hg, rfl⟩ := List.mem_map.mp hf
    exact (hfields g hg).1
  rw [strict, map_braced hquote hne hfields, dropCommas_braced hne fun f hf => (hfields f hf).1,
    quoteKeys_braced (by simpa using hne) hkeys, List.map_map]
  rfl

end

end Loose

/-! ### Reading -/

section

variable {size depth fuel : Nat} {acc : List (String × Json)} {f : Written} {fields : List Written}

/-- The object's field that a written field stands for. -/
def Written.entry (f : Written) : String × Json := (String.ofList f.1, .string (String.ofList f.2))

/-- A field that other text follows is read up to the text. -/
theorem readFields?_strictField (hkey : IsKey f.1) (hvalue : Quotable f.2)
    (hsize : (strictField f).length < size) (acc : List (String × Json)) {after : List Char}
    {c : Char} (hc : isJsonBlank c = false) :
    readFields? size (readValue? size depth) (fuel + 1) acc (strictField f ++ c :: after) =
      if c = ',' then
        readFields? size (readValue? size depth) fuel (Keyed.put f.entry.1 f.entry.2 acc) after
      else if c = '\x7d' then some (Keyed.put f.entry.1 f.entry.2 acc, after)
      else none := by
  simp only [strictField, List.length_cons, List.length_append] at hsize
  have hname := readString?_append hkey.quotable.readable (show f.1.length < size by omega) []
    (':' :: ' ' :: '"' :: (f.2 ++ '"' :: c :: after))
  have htext := readString?_append hvalue.readable (show f.2.length < size by omega) []
    (c :: after)
  have hcolon : ∀ s, skipBlanks (':' :: s) = ':' :: s := fun s =>
    skipBlanks_cons_of_not (by decide) s
  have hspace : ∀ s, skipBlanks (' ' :: '"' :: s) = '"' :: s := fun s => rfl
  simp only [strictField, List.cons_append, List.append_assoc, List.nil_append]
  rw [readFields?, skipBlanks_cons_of_not (by decide)]
  simp only [hname, hcolon, hspace, readValue?_string, htext, Option.map_some,
    skipBlanks_cons_of_not hc]
  by_cases hcomma : c = ','
  · subst hcomma
    rfl
  · by_cases hbrace : c = '\x7d'
    · subst hbrace
      rfl
    · rw [if_neg hcomma, if_neg hbrace]
      split
      · next h => exact absurd (List.head_eq_of_cons_eq h) hcomma
      · next h => exact absurd (List.head_eq_of_cons_eq h) hbrace
      · rfl

theorem readFields?_space (size fuel : Nat) (value : Reader) (acc : List (String × Json))
    (s : List Char) : readFields? size value fuel acc (' ' :: s) = readFields? size value fuel acc s := by
  cases fuel with
  | zero => rfl
  | succ fuel => rw [readFields?, readFields?]; rfl

/-- Fields are read up to the brace that closes them. -/
theorem readFields?_following (hfields : ∀ g ∈ f :: fields, IsKey g.1 ∧ Quotable g.2)
    (hsize : ∀ g ∈ f :: fields, (strictField g).length < size) (hfuel : fields.length < fuel) :
    readFields? size (readValue? size depth) fuel acc (strictField f ++ following strictField fields) =
      some (Keyed.putAll acc ((f :: fields).map Written.entry), []) := by
  induction fields generalizing f fuel acc with
  | nil =>
    obtain ⟨fuel, rfl⟩ := Nat.exists_eq_add_of_lt hfuel
    obtain ⟨hkey, hvalue⟩ := hfields f List.mem_cons_self
    rw [following, readFields?_strictField hkey hvalue (hsize f List.mem_cons_self) acc (by decide)]
    rfl
  | cons g fields ih =>
    obtain ⟨fuel, rfl⟩ := Nat.exists_eq_add_of_lt hfuel
    rw [List.forall_mem_cons] at hfields hsize
    obtain ⟨hkey, hvalue⟩ := hfields.1
    rw [following, readFields?_strictField hkey hvalue hsize.1 acc (by decide), if_pos rfl,
      readFields?_space, ih hfields.2 hsize.2 (by simp; omega)]
    rfl

/-- A value that holds a key without quotes ends at the quote that comes to stand before the key, and
no field goes on there. -/
theorem readFields?_of_holdsBareKey (hkey : IsKey f.1) (hvalue : Quotable f.2)
    (hsize : (strictField (f.1, Loose.quoteKeys f.2)).length < size)
    (h : Loose.HoldsBareKey f.2) (rest : List Char) :
    readFields? size (readValue? size depth) fuel acc
      (strictField (f.1, Loose.quoteKeys f.2) ++ rest) = none := by
  rcases Loose.quoteKeys_eq_self_or f.2 with
    ⟨hnot, -⟩ | ⟨-, before, c, key, after, hs, hc, more, hmore⟩
  · exact absurd h hnot
  · have hbefore : Quotable before :=
      hvalue.of_subset (by rw [hmore]; exact List.subset_append_left before more)
    have htext : strictField (f.1, Loose.quoteKeys f.2) ++ rest =
        strictField (f.1, before) ++ c :: (key ++ (after ++ '"' :: rest)) := by
      simp [strictField, hs]
    have hlength : (strictField (f.1, before)).length < size := by
      simp only [strictField, hs, List.length_cons, List.length_append] at hsize ⊢
      omega
    have hne : ∀ d, Loose.isKeyChar d = false → c ≠ d := by
      rintro d hd rfl
      rw [hc] at hd
      cases hd
    have hblank : isJsonBlank c = false := by
      simp [isJsonBlank, hne ' ' (by decide), hne '\n' (by decide), hne '\t' (by decide),
        hne '\r' (by decide)]
    cases fuel with
    | zero => rfl
    | succ fuel =>
      rw [htext, readFields?_strictField (f := (f.1, before)) hkey hbefore hlength acc hblank,
        if_neg (hne ',' (by decide)), if_neg (hne '\x7d' (by decide))]

/-- Fields of which a value holds a key without quotes are not read. -/
theorem readFields?_following_eq_none (hfields : ∀ g ∈ f :: fields, IsKey g.1 ∧ Quotable g.2)
    (hsize : ∀ g ∈ f :: fields, (strictField (g.1, Loose.quoteKeys g.2)).length < size)
    (h : ∃ g ∈ f :: fields, Loose.HoldsBareKey g.2) :
    readFields? size (readValue? size depth) fuel acc
      (strictField (f.1, Loose.quoteKeys f.2) ++
        following (strictField ∘ Prod.map id Loose.quoteKeys) fields) = none := by
  induction fields generalizing f fuel acc with
  | nil =>
    obtain ⟨g, hg, hholds⟩ := h
    obtain rfl := List.mem_singleton.mp hg
    obtain ⟨hkey, hvalue⟩ := hfields g hg
    exact readFields?_of_holdsBareKey hkey hvalue (hsize g hg) hholds _
  | cons g fields ih =>
    rw [List.forall_mem_cons] at hfields hsize
    obtain ⟨⟨hkey, hvalue⟩, hfields⟩ := hfields
    rcases Loose.quoteKeys_eq_self_or f.2 with ⟨hnot, hkept⟩ | ⟨hholds, -⟩
    · have htail : ∃ g' ∈ g :: fields, Loose.HoldsBareKey g'.2 := by
        obtain ⟨g', hg', hholds⟩ := h
        rcases List.mem_cons.mp hg' with rfl | hg'
        · exact absurd hholds hnot
        · exact ⟨g', hg', hholds⟩
      rw [hkept] at hsize ⊢
      cases fuel with
      | zero => rfl
      | succ fuel =>
        rw [following, readFields?_strictField (f := (f.1, f.2)) hkey hvalue hsize.1 acc (by decide),
          if_pos rfl, readFields?_space]
        exact ih hfields hsize.2 htail
    · exact readFields?_of_holdsBareKey hkey hvalue hsize.1 hholds _

/-! ### Fields in braces -/

theorem length_following_lt (write : Written → List Char) {g : Written} (hg : g ∈ fields) :
    (write g).length < (following write fields).length := by
  induction fields with
  | nil => cases hg
  | cons f fields ih =>
    simp only [following, List.length_cons, List.length_append]
    rcases List.mem_cons.mp hg with rfl | hg
    · omega
    · have := ih hg
      omega

theorem length_lt_length_braced (write : Written → List Char) {g : Written} (hg : g ∈ fields) :
    (write g).length < (braced write fields).length := by
  have hne := List.ne_nil_of_mem hg
  obtain ⟨f, fs, rfl⟩ := List.exists_cons_of_ne_nil hne
  rw [braced_cons]
  simp only [List.length_cons, List.length_append]
  rcases List.mem_cons.mp hg with rfl | hg
  · omega
  · have := length_following_lt write hg
    omega

theorem length_le_length_following (write : Written → List Char) (fields : List Written) :
    fields.length ≤ (following write fields).length := by
  induction fields with
  | nil => simp
  | cons f fields ih =>
    simp only [following, List.length_cons, List.length_append]
    omega

/-- What stands in braces is read as the fields of an object if it begins with a quote. -/
theorem parse?_braced_cons {write : Written → List Char} (hf : ∃ s, write f = '"' :: s) :
    parse? (braced write (f :: fields)) =
      (readFields? (braced write (f :: fields)).length
        (readValue? (braced write (f :: fields)).length 126) (braced write (f :: fields)).length []
        (write f ++ following write fields)).bind
        fun found => if (skipBlanks found.2).isEmpty then some (.object found.1) else none := by
  obtain ⟨s, hs⟩ := hf
  have hstart : skipBlanks (write f ++ following write fields) =
      write f ++ following write fields := by
    rw [hs]
    exact skipBlanks_cons_of_not (by decide) _
  have hobject : ∀ r, skipBlanks (write f ++ following write fields) ≠ '\x7d' :: r := by
    intro r h
    rw [hstart, hs] at h
    cases h
  generalize hsize : (braced write (f :: fields)).length = size
  rw [parse?, hsize, braced_cons, skipBlanks_cons_of_not (by decide), maxDepth,
    readValue?_object hobject, hstart]
  cases readFields? size (readValue? size 126) size [] (write f ++ following write fields) with
  | none => rfl
  | some found => rfl

end

section

variable {quote : Char} {fields : List Written}

theorem parse?_braced_quotedField (hne : fields ≠ []) (hfields : ∀ f ∈ fields, IsKey f.1) :
    parse? (braced (quotedField quote) fields) = none := by
  obtain ⟨f, fs, rfl⟩ := List.exists_cons_of_ne_nil hne
  rw [braced_cons, quotedField, List.append_assoc]
  exact parse?_of_isKey (hfields f List.mem_cons_self) _

/-- The fields keep what is asked of them when their values lose commas. -/
theorem forall_map_dropCommas (hfields : ∀ f ∈ fields, IsKey f.1 ∧ Quotable f.2) :
    ∀ f ∈ fields.map (Prod.map id Loose.dropCommas), IsKey f.1 ∧ Quotable f.2 := by
  intro f hf
  obtain ⟨g, hg, rfl⟩ := List.mem_map.mp hf
  obtain ⟨hkey, hvalue⟩ := hfields g hg
  exact ⟨hkey, hvalue.of_subset fun c hc => Loose.mem_of_mem_dropCommas hc⟩

/-- Fields in braces of which a value holds a key without quotes are no object. -/
theorem Loose.parse?_braced_of_holdsBareKey (hquote : quote = '"' ∨ quote = '\'')
    (hfields : ∀ f ∈ fields, IsKey f.1 ∧ Quotable f.2)
    (h : ∃ f ∈ fields, Loose.HoldsBareKey f.2) :
    Loose.parse? (braced (quotedField quote) fields) = none := by
  obtain ⟨g, hg, hholds⟩ := h
  have hne := List.ne_nil_of_mem hg
  have hcompose : (Prod.map id fun value => Loose.quoteKeys (Loose.dropCommas value) :
      Written → Written) = Prod.map id Loose.quoteKeys ∘ Prod.map id Loose.dropCommas := rfl
  rw [Loose.parse?, parse?_braced_quotedField hne fun f hf => (hfields f hf).1, Option.none_or,
    Loose.strict_braced hquote hne hfields, hcompose, ← List.map_map, braced_map]
  have hdropped : ∃ f ∈ fields.map (Prod.map id Loose.dropCommas), Loose.HoldsBareKey f.2 :=
    ⟨_, List.mem_map_of_mem hg, Loose.holdsBareKey_dropCommas_iff.mpr hholds⟩
  have hkept := forall_map_dropCommas hfields
  generalize fields.map (Prod.map id Loose.dropCommas) = dropped at hdropped hkept
  obtain ⟨f, fs, rfl⟩ : ∃ f fs, dropped = f :: fs := by
    obtain ⟨g, hg, -⟩ := hdropped
    exact List.exists_cons_of_ne_nil (List.ne_nil_of_mem hg)
  have hsize := fun g (hg : g ∈ f :: fs) =>
    length_lt_length_braced (strictField ∘ Prod.map id Loose.quoteKeys) hg
  rw [parse?_braced_cons ⟨_, rfl⟩]
  exact congrArg (Option.bind · _) (readFields?_following_eq_none hkept hsize hdropped)

/-- **Fields in braces** of which no value holds a key without quotes are the object that they look
like, but for the commas that its values lose. -/
theorem Loose.parse?_braced_of_not_holdsBareKey (hquote : quote = '"' ∨ quote = '\'')
    (hne : fields ≠ []) (hfields : ∀ f ∈ fields, IsKey f.1 ∧ Quotable f.2)
    (hdistinct : (fields.map Prod.fst).Nodup) (h : ∀ f ∈ fields, ¬ Loose.HoldsBareKey f.2) :
    Loose.parse? (braced (quotedField quote) fields) =
      some (.object (fields.map fun f => Written.entry (f.1, Loose.dropCommas f.2))) := by
  have hrewritten : ∀ f ∈ fields, Prod.map id (fun v => Loose.quoteKeys (Loose.dropCommas v)) f =
      Prod.map id Loose.dropCommas f := by
    intro f hf
    have hnot : ¬ Loose.HoldsBareKey (Loose.dropCommas f.2) := fun hholds =>
      h f hf (Loose.holdsBareKey_dropCommas_iff.mp hholds)
    rcases Loose.quoteKeys_eq_self_or (Loose.dropCommas f.2) with ⟨-, hkept⟩ | ⟨hholds, -⟩
    · exact Prod.ext rfl hkept
    · exact absurd hholds hnot
  rw [Loose.parse?, parse?_braced_quotedField hne fun f hf => (hfields f hf).1, Option.none_or,
    Loose.strict_braced hquote hne hfields, List.map_congr_left hrewritten]
  have hentries : (fields.map fun f => Written.entry (f.1, Loose.dropCommas f.2)) =
      (fields.map (Prod.map id Loose.dropCommas)).map Written.entry := by
    rw [List.map_map]
    rfl
  have hdropped : ((fields.map (Prod.map id Loose.dropCommas)).map Prod.fst).Nodup := by
    rwa [List.map_map]
  have hkept := forall_map_dropCommas hfields
  have hnil : fields.map (Prod.map id Loose.dropCommas) ≠ [] := by simpa using hne
  rw [hentries]
  generalize fields.map (Prod.map id Loose.dropCommas) = dropped at hnil hdropped hkept
  obtain ⟨f, fs, rfl⟩ := List.exists_cons_of_ne_nil hnil
  have hsize := fun g (hg : g ∈ f :: fs) => length_lt_length_braced strictField hg
  have hfuel : fs.length < (braced strictField (f :: fs)).length := by
    have := length_le_length_following strictField fs
    rw [braced_cons, List.length_cons, List.length_append]
    omega
  have hput : Keyed.putAll [] ((f :: fs).map Written.entry) = (f :: fs).map Written.entry := by
    refine putAll_of_nodup ?_
    have hkeys : ((f :: fs).map Written.entry).map Prod.fst =
        ((f :: fs).map Prod.fst).map String.ofList := by
      rw [List.map_map, List.map_map]
      rfl
    rw [List.nil_append, hkeys]
    exact List.Nodup.map (fun _ _ => String.ofList_injective) hdropped
  rw [parse?_braced_cons ⟨_, rfl⟩, readFields?_following hkept hsize hfuel, hput]
  rfl

end

end Scrape.Json
