import Scrape.Html.Reference
import Scrape.Text.Find

/-!
# Html — Token

The tokens of a page.  A token is read on demand, because what a text means depends on the element
it stands in (`Content`).  Nothing is an error: what follows no rule is read as text or as a
comment, and a tag that does not end is left out.
-/

namespace Scrape.Html

/-- A tag as it is written: its name in small letters, its attributes, each name once, and whether
it ends with a slash. -/
structure TagToken where
  name : String
  attrs : List (String × String)
  selfClosing : Bool
  deriving DecidableEq

/-- The declaration of a document type. -/
structure Doctype where
  name : String
  publicId? : Option String
  systemId? : Option String
  /-- Whether the declaration is not well written. -/
  broken : Bool

/-- A token. -/
inductive Token where
  | doctype (d : Doctype)
  | start (t : TagToken)
  | close (t : TagToken)
  | comment (s : String)
  /-- Characters that are blanks. -/
  | blanks (s : List Char)
  /-- Characters that are no blanks. -/
  | text (s : List Char)
  | null
  | done

/-- How the content of an element is read. -/
inductive Content where
  /-- Tags, texts and comments. -/
  | markup
  /-- Text up to the end tag of that name, with or without references. -/
  | raw (name : List Char) (references : Bool)
  /-- Text up to the end tag of a script. -/
  | script
  /-- Text up to the end. -/
  | plain
  deriving DecidableEq

/-- Whether the character is a blank of the markup. -/
def isBlank (c : Char) : Bool := c = '\t' || c = '\n' || c = '\x0c' || c = '\r' || c = ' '

/-- The character, or the replacement of what is none. -/
def visible (c : Char) : Char := if c = '\x00' then replacementChar else c

/-! ### Attributes -/

/-- The characters of a value up to the one that ends it, with references; `acc` holds those so far
in reverse, and `fuel` bounds the length of the text.  Without an end there is no value. -/
def readValue? (ends : Char → Bool) : Nat → List Char → List Char → Option (List Char × List Char)
  | 0,        _,   _  => none
  | _ + 1,    _,   [] => none
  | fuel + 1, acc, c :: r =>
    if ends c then some (acc.reverse, c :: r)
    else if c = '&' then
      let (cs, r) := readReference true r
      readValue? ends fuel (cs.reverse ++ acc) r
    else readValue? ends fuel (visible c :: acc) r

/-- Reads the value of an attribute after its equals sign. -/
def readAttrValue? (size : Nat) (s : List Char) : Option (List Char × List Char) :=
  match s.dropWhile isBlank with
  | '"' :: r  => (readValue? (· = '"') (size + 1) [] r).map fun (v, r) => (v, r.drop 1)
  | '\'' :: r => (readValue? (· = '\'') (size + 1) [] r).map fun (v, r) => (v, r.drop 1)
  | '>' :: r  => some ([], '>' :: r)
  | r         => readValue? (fun c => isBlank c || c = '>') (size + 1) [] r

/-- The name of an attribute at the start, and what follows it; an equals sign may stand first. -/
def readAttrName (s : List Char) : String × List Char :=
  let ends (c : Char) : Bool := isBlank c || c = '/' || c = '>' || c = '='
  let (name, r) := match s with
    | '=' :: r => let (name, r) := r.span (!ends ·); ('=' :: name, r)
    | s        => s.span (!ends ·)
  (String.ofList (name.map fun c => visible c.toLower), r)

/-- The attributes with another one, unless its name is there. -/
def addAttr (name : String) (value : List Char) (attrs : List (String × String)) :
    List (String × String) :=
  if attrs.any fun a => a.1 = name then attrs else attrs ++ [(name, String.ofList value)]

/-- Reads the attributes of a tag and its end, after the attributes `attrs`; `fuel` bounds the
length of the text. -/
def readAttrs? (size : Nat) : Nat → List (String × String) → List Char →
    Option (List (String × String) × Bool × List Char)
  | 0,        _,     _ => none
  | fuel + 1, attrs, s =>
    match s.dropWhile isBlank with
    | []              => none
    | '>' :: r        => some (attrs, false, r)
    | '/' :: '>' :: r => some (attrs, true, r)
    | '/' :: r        => readAttrs? size fuel attrs r
    | s               =>
      let (name, r) := readAttrName s
      match r.dropWhile isBlank with
      | '=' :: r =>
        match readAttrValue? size r with
        | some (value, r) => readAttrs? size fuel (addAttr name value attrs) r
        | none            => none
      | r => readAttrs? size fuel (addAttr name [] attrs) r

/-- Reads a tag from its name on; a tag that does not end takes the rest with it. -/
def readTag (size : Nat) (close : Bool) (s : List Char) : Token × List Char :=
  let (name, r) := s.span fun c => !(isBlank c || c = '/' || c = '>')
  match readAttrs? size (size + 1) [] r with
  | none                          => (.done, [])
  | some (attrs, selfClosing, r)  =>
    let t : TagToken := ⟨String.ofList (name.map fun c => visible c.toLower), attrs, selfClosing⟩
    (if close then .close t else .start t, r)

/-! ### Comments and declarations -/

/-- The characters without the marks at the end of a comment that is not closed. -/
def withoutMarks (reversed : List Char) : List Char :=
  match reversed with
  | '!' :: '-' :: '-' :: r => r.reverse
  | '-' :: '-' :: r        => r.reverse
  | '-' :: r               => r.reverse
  | r                      => r.reverse

/-- The characters of a comment up to its end; `acc` holds those so far in reverse. -/
def readCommentText (acc : List Char) : List Char → List Char × List Char
  | []                            => (withoutMarks acc, [])
  | '-' :: '-' :: '>' :: r        => (acc.reverse, r)
  | '-' :: '-' :: '!' :: '>' :: r => (acc.reverse, r)
  | c :: r                        => readCommentText (visible c :: acc) r

/-- Reads a comment after its opening mark. -/
def readComment (s : List Char) : Token × List Char :=
  match s with
  | '>' :: r        => (.comment "", r)
  | '-' :: '>' :: r => (.comment "", r)
  | s               =>
    let (text, r) := readCommentText [] s
    (.comment (String.ofList text), r)

/-- Reads what is taken for a comment: all up to the end of a tag. -/
def readBogusComment (s : List Char) : Token × List Char :=
  let (text, r) := s.span (· ≠ '>')
  (.comment (String.ofList (text.map visible)), r.drop 1)

/-- Reads an identifier in quotes; it ends at its quote, or else at the end of the declaration,
which then is broken. -/
def readIdentifier? (s : List Char) : Option (String × Bool × List Char) :=
  match s with
  | q :: r =>
    if q = '"' || q = '\'' then
      let (text, r) := r.span fun c => c ≠ q && c ≠ '>'
      let closed := r.head? = some q
      some (String.ofList (text.map visible), closed, if closed then r.drop 1 else r)
    else none
  | [] => none

/-- The end of a declaration, and what follows it. -/
def endDoctype (d : Doctype) (s : List Char) : Token × List Char :=
  let r := s.dropWhile (· ≠ '>')
  (.doctype { d with broken := d.broken || r.isEmpty }, r.drop 1)

/-- Reads the declaration of a document type after its first word. -/
def readDoctype (s : List Char) : Token × List Char :=
  let (name, r) := (s.dropWhile isBlank).span fun c => !(isBlank c || c = '>')
  let name := String.ofList (name.map fun c => visible c.toLower)
  let r := r.dropWhile isBlank
  let d : Doctype := ⟨name, none, none, name.isEmpty⟩
  let word := Text.asciiLower (r.take 6)
  if r.head? = some '>' || r.isEmpty then endDoctype d r
  else if word = "public".toList then
    match readIdentifier? ((r.drop 6).dropWhile isBlank) with
    | none                    => endDoctype { d with broken := true } r
    | some (id, closed, r) =>
      let d := { d with publicId? := some id, broken := d.broken || !closed }
      match readIdentifier? (r.dropWhile isBlank) with
      | none                     => endDoctype d r
      | some (id, closed, r) =>
        endDoctype { d with systemId? := some id, broken := d.broken || !closed } r
  else if word = "system".toList then
    match readIdentifier? ((r.drop 6).dropWhile isBlank) with
    | none                     => endDoctype { d with broken := true } r
    | some (id, closed, r) =>
      endDoctype { d with systemId? := some id, broken := d.broken || !closed } r
  else endDoctype { d with broken := true } r

/-! ### Texts -/

/-- The characters of a kind at the start, with references taken, up to a tag or a null; `acc` holds
those so far in reverse, and `fuel` bounds the length of the text. -/
def readRun (blanks : Bool) : Nat → List Char → List Char → List Char × List Char
  | 0,        acc, s  => (acc.reverse, s)
  | _ + 1,    acc, [] => (acc.reverse, [])
  | fuel + 1, acc, c :: r =>
    if c = '<' || c = '\x00' then (acc.reverse, c :: r)
    else if c = '&' then
      let (cs, after) := readReference false r
      if cs.all fun c => isBlank c == blanks then readRun blanks fuel (cs.reverse ++ acc) after
      else (acc.reverse, c :: r)
    else if isBlank c == blanks then readRun blanks fuel (c :: acc) r
    else (acc.reverse, c :: r)

/-- Reads characters, of which the first is a blank or not. -/
def readText (size : Nat) (s : List Char) : Token × List Char :=
  match readRun true (size + 1) [] s with
  | ([], s)     => let (text, r) := readRun false (size + 1) [] s; (.text text, r)
  | (blanks, r) => (.blanks blanks, r)

/-- The characters up to the end of a section of characters. -/
def readSection (s : List Char) : List Char × List Char :=
  (Text.cut? "]]>".toList s).getD (s, [])

/-- The token of characters that are read as they are. -/
def textToken (s : List Char) : Token := if s.all isBlank then .blanks s else .text s

/-- Whether the name can start a tag. -/
def startsTag (c : Char) : Bool := Text.isAsciiLetter c

/-- Reads a token of markup; in another vocabulary a section of characters can stand. -/
def readMarkup (size : Nat) (foreign : Bool) (s : List Char) : Token × List Char :=
  match s with
  | []                         => (.done, [])
  | '\x00' :: r                => (.null, r)
  | '<' :: '/' :: c :: r       =>
    if startsTag c then readTag size true (c :: r)
    else if c = '>' then (.blanks [], r)
    else readBogusComment (c :: r)
  | '<' :: '!' :: '-' :: '-' :: r => readComment r
  | '<' :: '!' :: r            =>
    if Text.equalIgnoringCase (r.take 7) "doctype".toList then readDoctype (r.drop 7)
    else if foreign && r.take 7 = "[CDATA[".toList then
      let (text, r) := readSection (r.drop 7)
      (textToken text, r)
    else readBogusComment r
  | '<' :: '?' :: r            => readBogusComment ('?' :: r)
  | '<' :: c :: r              =>
    if startsTag c then readTag size false (c :: r) else (.text ['<'], c :: r)
  | ['<']                      => (.text ['<'], [])
  | s                          => readText size s

/-! ### Raw texts -/

/-- What follows the name of an end tag, if the text starts with the end tag of that name. -/
def afterEndTag? (name : List Char) (s : List Char) : Option (List Char) :=
  match s with
  | '<' :: '/' :: r =>
    let after := r.drop name.length
    if Text.asciiLower (r.take name.length) = name
        && after.head?.any fun c => isBlank c || c = '/' || c = '>' then some after
    else none
  | _ => none

/-- Reads the end tag of a raw text from the end of its name on. -/
def readEndTag (size : Nat) (name after : List Char) : Token × List Char :=
  match readAttrs? size (size + 1) [] after with
  | none                         => (.done, [])
  | some (attrs, selfClosing, r) => (.close ⟨String.ofList name, attrs, selfClosing⟩, r)

/-- The characters up to an end tag; `acc` holds those so far in reverse, and `fuel` bounds the
length of the text. -/
def readRawText (name : List Char) (references : Bool) :
    Nat → List Char → List Char → List Char × List Char
  | 0,        acc, s  => (acc.reverse, s)
  | _ + 1,    acc, [] => (acc.reverse, [])
  | fuel + 1, acc, c :: r =>
    if c = '<' && (afterEndTag? name (c :: r)).isSome then (acc.reverse, c :: r)
    else if c = '&' && references then
      let (cs, r) := readReference false r
      readRawText name references fuel (cs.reverse ++ acc) r
    else readRawText name references fuel (visible c :: acc) r

/-- Whether a script holds a comment here, and in that another script. -/
inductive ScriptPlace where
  | outside
  | inComment
  | inInnerScript
  deriving DecidableEq

/-- Whether the text starts with a mark before the name `script` and with what ends that name. -/
def startsScriptTag (mark s : List Char) : Bool :=
  match Text.after? mark s with
  | some r =>
    Text.asciiLower (r.take 6) = "script".toList
      && (r.drop 6).head?.any fun c => isBlank c || c = '/' || c = '>'
  | none => false

/-- The place in a script after a character, by the text that starts with the character and the
characters before it in reverse. -/
def ScriptPlace.after (place : ScriptPlace) (before s : List Char) : ScriptPlace :=
  match place with
  | .outside       =>
    match s, before with
    | '-' :: _, '-' :: '!' :: '<' :: _ => .inComment
    | _,        _                      => .outside
  | .inComment     =>
    match s, before with
    | '>' :: _, '-' :: '-' :: _ => .outside
    | _,        _ => if startsScriptTag ['<'] s then .inInnerScript else .inComment
  | .inInnerScript =>
    match s, before with
    | '>' :: _, '-' :: '-' :: _ => .outside
    | _,        _ => if startsScriptTag ['<', '/'] s then .inComment else .inInnerScript

/-- The characters of a script up to its end tag; `acc` holds those so far in reverse. -/
def readScriptText (place : ScriptPlace) (acc : List Char) : List Char → List Char × List Char
  | []     => (acc.reverse, [])
  | c :: r =>
    if c = '<' && place ≠ .inInnerScript && (afterEndTag? "script".toList (c :: r)).isSome then
      (acc.reverse, c :: r)
    else readScriptText (place.after acc (c :: r)) (visible c :: acc) r

/-- Reads a token of raw text, the end tag of which has the given name. -/
def readRaw (size : Nat) (name : List Char) (text : List Char → List Char × List Char)
    (s : List Char) : Token × List Char :=
  if s.isEmpty then (.done, [])
  else
    match afterEndTag? name s with
    | some after => readEndTag size name after
    | none       =>
      let (text, r) := text s
      (textToken text, r)

/-- Reads a token. -/
def readToken (size : Nat) (content : Content) (foreign : Bool) (s : List Char) :
    Token × List Char :=
  match content with
  | .markup              => readMarkup size foreign s
  | .raw name references => readRaw size name (readRawText name references (size + 1) []) s
  | .script              => readRaw size "script".toList (readScriptText .outside []) s
  | .plain               => if s.isEmpty then (.done, []) else (textToken (s.map visible), [])

end Scrape.Html
