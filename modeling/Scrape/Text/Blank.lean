/-!
# Text — Blank

White space in the sense of Unicode: trimming, words, and the single-spaced form of a text.
Texts are lists of characters, so that every function here is a recursion on its argument.
-/

namespace Scrape.Text

/-- The white space of Unicode. -/
def isBlank (c : Char) : Bool :=
  let n := c.toNat
  (9 ≤ n && n ≤ 13) || n == 0x20 || n == 0x85 || n == 0xA0 || n == 0x1680
    || (0x2000 ≤ n && n ≤ 0x200A) || n == 0x2028 || n == 0x2029 || n == 0x202F
    || n == 0x205F || n == 0x3000

/-- The text from its first character that is not blank. -/
def trimStart (s : List Char) : List Char := s.dropWhile isBlank

/-- The text up to its last character that is not blank. -/
def trimEnd (s : List Char) : List Char := (s.reverse.dropWhile isBlank).reverse

/-- The text without the blanks at its two ends. -/
def trim (s : List Char) : List Char := trimEnd (trimStart s)

/-- Whether the text holds blanks only. -/
def allBlank (s : List Char) : Bool := s.all isBlank

/-- The words `found`, latest first, with the letters of one more word, last letter first. -/
def pushWord (found : List (List Char)) (word : List Char) : List (List Char) :=
  if word.isEmpty then found else word.reverse :: found

/-- The words of `s` after the words `found` and the letters `word` of a word that has begun. -/
def wordsAfter (found : List (List Char)) (word : List Char) : List Char → List (List Char)
  | []     => (pushWord found word).reverse
  | c :: s =>
    if isBlank c then wordsAfter (pushWord found word) [] s else wordsAfter found (c :: word) s

/-- The maximal runs of characters that are not blank, in order. -/
def words (s : List Char) : List (List Char) := wordsAfter [] [] s

/-- The words of the text with one space between them. -/
def singleSpaced (s : String) : String :=
  " ".intercalate ((words s.toList).map String.ofList)

/-- `trim` on strings. -/
def trimmed (s : String) : String := String.ofList (trim s.toList)

end Scrape.Text
