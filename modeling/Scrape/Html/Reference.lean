import Scrape.Html.Entity
import Scrape.Text.Category

/-!
# Html — Reference

References to characters, by name or by number, after their ampersand.
-/

namespace Scrape.Html

/-- The character in the place of what is none. -/
def replacementChar : Char := Char.ofNat 0xFFFD

/-- The characters that an old code page has in the range of the upper control characters. -/
def controlReplacements : List Nat :=
  [0x20AC, 0x81, 0x201A, 0x192, 0x201E, 0x2026, 0x2020, 0x2021, 0x2C6, 0x2030, 0x160, 0x2039,
   0x152, 0x8D, 0x17D, 0x8F, 0x90, 0x2018, 0x2019, 0x201C, 0x201D, 0x2022, 0x2013, 0x2014, 0x2DC,
   0x2122, 0x161, 0x203A, 0x153, 0x9D, 0x17E, 0x178]

/-- The character of a number. -/
def charOfNumber (n : Nat) : Char :=
  if n = 0 || !n.isValidChar then replacementChar
  else if 0x80 ≤ n && n ≤ 0x9F then Char.ofNat (controlReplacements[n - 0x80]?.getD n)
  else Char.ofNat n

/-- Reads a number after its mark; without digits there is no reference. -/
def readNumberReference? (radix : Nat) (s : List Char) : Option (List Char × List Char) :=
  let (digits, r) := s.span fun c => (Text.digitValue? radix c).isSome
  (Text.readNat? radix digits).map fun n =>
    ([charOfNumber n],
      match r with
      | ';' :: r => r
      | r        => r)

/-- Whether the character can be part of a name. -/
def isReferenceChar (c : Char) : Bool := Text.isAsciiLetter c || Text.isDigit c

/-- The longest beginning of a text, of at most `n` characters, that is a name without a
semicolon. -/
def shortName? (name : List Char) : Nat → Option (List Char)
  | 0     => none
  | n + 1 =>
    if shortEntities.contains (name.take (n + 1)) then some (name.take (n + 1))
    else shortName? name n

/-- Reads a name.  In the value of an attribute a name without a semicolon is none if it goes on or
an equals sign follows. -/
def readNameReference? (inAttr : Bool) (s : List Char) : Option (List Char × List Char) :=
  let (name, r) := s.span isReferenceChar
  let long? := match r with
    | ';' :: r => (entity? name).map fun cs => (cs, r)
    | _        => none
  long?.or <|
    match shortName? name (min 6 name.length) with
    | none       => none
    | some short =>
      let after := s.drop short.length
      if inAttr && after.head?.any fun c => c = '=' || isReferenceChar c then none
      else (entity? short).map fun cs => (cs, after)

/-- Reads a reference after its ampersand: its characters and what follows it.  If there is none,
the ampersand stands for itself. -/
def readReference (inAttr : Bool) (s : List Char) : List Char × List Char :=
  let found? := match s with
    | '#' :: 'x' :: r => readNumberReference? 16 r
    | '#' :: 'X' :: r => readNumberReference? 16 r
    | '#' :: r        => readNumberReference? 10 r
    | s               => readNameReference? inAttr s
  found?.getD (['&'], s)

end Scrape.Html
