import Scrape.Json.Loose
import Scrape.Json.Printer
import Scrape.Rule.Span
import Scrape.Rule.Split
import Scrape.Session

/-!
# Evaluate — Directive

What a rule says about the session.  `@put:` and braces puts the results of rules under keys, and is
no part of the rule itself; `@get:` and braces stands for what is under a key.
-/

namespace Scrape.Evaluate

open Scrape.Rule (Tags fillSpans? split)
open Scrape.Text (cut? trim)

/-! ### Putting -/

/-- The text in the brace that has been opened, and the text after the one that closes it, after
the characters `acc`, which are held in reverse.  Braces in quotes do not count. -/
def closeBrace? (depth : Nat) (quote? : Option Char) (escaped : Bool) (acc : List Char) :
    List Char → Option (List Char × List Char)
  | []     => none
  | c :: s =>
    match quote? with
    | some q =>
      if escaped then closeBrace? depth quote? false (c :: acc) s
      else if c = '\\' then closeBrace? depth quote? true (c :: acc) s
      else if c = q then closeBrace? depth none false (c :: acc) s
      else closeBrace? depth quote? false (c :: acc) s
    | none =>
      if c = '"' || c = '\'' then closeBrace? depth (some c) false (c :: acc) s
      else if c = '\x7b' then closeBrace? (depth + 1) none false (c :: acc) s
      else if c = '\x7d' then
        if depth ≤ 1 then some (acc.reverse, s)
        else closeBrace? (depth - 1) none false (c :: acc) s
      else closeBrace? depth none false (c :: acc) s

theorem length_closeBrace? {depth : Nat} {quote? : Option Char} {escaped : Bool}
    {acc s inside rest : List Char}
    (h : closeBrace? depth quote? escaped acc s = some (inside, rest)) :
    rest.length ≤ s.length := by
  fun_induction closeBrace? depth quote? escaped acc s with
  | case1 => simp at h
  | _ => grind

/-- A key or a rule without the blanks and quotes around it. -/
def unquoted (s : List Char) : List Char :=
  let isQuote (c : Char) : Bool := c = '"' || c = '\''
  (((trim s).dropWhile isQuote).reverse.dropWhile isQuote).reverse

/-- A key and a rule on the two sides of the first colon; nothing if there is none or the key is
empty. -/
def pair? (s : List Char) : Option (String × List Char) :=
  match cut? [':'] s with
  | some (key, rule) =>
    let key := unquoted key
    if key.isEmpty then none else some (String.ofList key, unquoted rule)
  | none => none

/-- The keys and rules of a text in braces: the fields of the object that it is, or else what stands
between its commas. -/
def pairs (body : List Char) : List (String × List Char) :=
  match Json.Loose.parse? body with
  | some (.object fields) => fields.map fun (k, v) => (k, v.output.toList)
  | _ =>
    let isOpen (c : Char) : Bool := c = '\x7b'
    let isClose (c : Char) : Bool := c = '\x7d'
    let inside := (((trim body).dropWhile isOpen).reverse.dropWhile isClose).reverse
    (split [[',']] inside).filterMap pair?

/-- The mark before the brace of a directive that puts. -/
def putMark : List Char := "@put:".toList

/-- A rule taken apart at its directives that put: the text before each with its keys and rules, and
the text after the last. -/
structure Puts where
  directives : List (List Char × List (String × List Char))
  tail : List Char

/-- The directives of the rest of a rule, after those `found`, latest first.  One that is not closed
is none, and ends the search. -/
def putsFrom (found : List (List Char × List (String × List Char))) (s : List Char) : Puts :=
  match _h : cut? (putMark ++ ['\x7b']) s with
  | none                => ⟨found.reverse, s⟩
  | some (before, rest) =>
    match _hc : closeBrace? 1 none false [] rest with
    | none                => ⟨found.reverse, s⟩
    | some (inside, rest) =>
      putsFrom ((before, pairs ('\x7b' :: inside ++ ['\x7d'])) :: found) rest
termination_by s.length
decreasing_by
  have := Text.length_cut? _h
  have := length_closeBrace? _hc
  simp [putMark] at *
  omega

/-- The directives of a rule that put. -/
def puts (rule : List Char) : Puts := putsFrom [] rule

/-- The rule without its directives that put. -/
def Puts.rule (p : Puts) : List Char := (p.directives.map Prod.fst).flatten ++ p.tail

/-! ### Getting -/

/-- The tags of a directive that gets. -/
def getTags : Tags := ⟨"@get:".toList ++ ['\x7b'], ['\x7d']⟩

/-- The rule with what is under the keys that it gets, which is nothing where nothing was put. -/
def withGets (session : Session) (rule : List Char) : List Char :=
  (fillSpans? getTags
    (fun key => some ((session.get? (String.ofList (trim key))).getD "").toList) rule).getD rule

end Scrape.Evaluate
