import Scrape.Text.Category
import Scrape.Text.Percent

/-!
# Address — Basic

Addresses of resources: a scheme, perhaps an authority (who serves the resource), a path, and
perhaps a query and a fragment.  The path of an address is a list of segments, or, where the scheme
has none, a text that means nothing to anyone else.  Parts hold their text as it is written, with
what cannot be written as percent signs and digits.
-/

namespace Scrape

namespace Address

/-- The path of an address. -/
inductive Path where
  | opaqueText (text : List Char)
  | segments (list : List (List Char))
  deriving DecidableEq

end Address

/-- An address. -/
structure Address where
  scheme : List Char
  authority? : Option (List Char)
  path : Address.Path
  query? : Option (List Char)
  fragment? : Option (List Char)
  deriving DecidableEq

namespace Address

/-! ### Schemes -/

/-- The schemes whose addresses always have a host and a path, with the port that goes without
saying. -/
def defaultPorts : List (List Char × Nat) :=
  [("http".toList, 80), ("https".toList, 443), ("ws".toList, 80), ("wss".toList, 443),
   ("ftp".toList, 21)]

/-- The scheme of files. -/
def fileScheme : List Char := "file".toList

/-- The port of a scheme that goes without saying. -/
def defaultPort? (scheme : List Char) : Option Nat :=
  (defaultPorts.find? fun p => p.1 == scheme).map Prod.snd

/-- Whether the scheme is that of files or one whose addresses have a host. -/
def isSpecial (scheme : List Char) : Bool := scheme == fileScheme || (defaultPort? scheme).isSome

/-! ### Characters -/

/-- Whether the character is written with percent signs in every part of an address. -/
def isControl (c : Char) : Bool := c.toNat < 0x20 || c.toNat ≥ 0x7F

/-- The text with a character's bytes written with percent signs where it is a control character,
not of ASCII, or one of those given. -/
def encoded (reserved : List Char) (s : List Char) : List Char :=
  s.flatMap fun c =>
    if isControl c || reserved.contains c then
      c.toString.toUTF8.toList.flatMap Text.percentByte
    else [c]

/-- The characters that a fragment writes with percent signs. -/
def fragmentReserved : List Char := [' ', '"', '<', '>', '\x60']

/-- The characters that a segment of a path writes with percent signs. -/
def pathReserved : List Char := fragmentReserved ++ ['#', '?', '\x7b', '\x7d']

/-- The characters that a name or a password writes with percent signs. -/
def userReserved : List Char :=
  pathReserved ++ ['/', ':', ';', '=', '@', '[', '\\', ']', '^', '|']

/-- The characters that a query writes with percent signs. -/
def queryReserved (scheme : List Char) : List Char :=
  [' ', '"', '#', '<', '>'] ++ if isSpecial scheme then ['\''] else []

/-! ### Writing -/

/-- A path as it is written. -/
def Path.text : Path → List Char
  | opaqueText t => t
  | segments l   => l.flatMap fun s => '/' :: s

/-- What stands before a path without an authority, lest its start be taken for one. -/
def Path.guard : Path → List Char
  | segments ([] :: _ :: _) => ['/', '.']
  | _                       => []

/-- The address as it is written. -/
def text (a : Address) : List Char :=
  a.scheme ++ ':' ::
    (match a.authority? with
      | some t => '/' :: '/' :: t
      | none   => a.path.guard)
    ++ a.path.text
    ++ (match a.query? with
      | some q => '?' :: q
      | none   => [])
    ++ (match a.fragment? with
      | some f => '#' :: f
      | none   => [])

end Address
end Scrape
