import VideoCatalog.Text.Ranges

/-!
# Blanks

The characters that separate words and are trimmed from the ends of a text: the white space
of all scripts and the four separator controls.

* `isBlank`: the class.
* `trim`: a text without blanks at its ends.
* `words`: the maximal pieces of a text without blanks.
-/

namespace VideoCatalog.Text

/-- The blanks. -/
def blankRanges : List (Nat × Nat) := [
  (0x9, 0xd), (0x1c, 0x20), (0x85, 0x85), (0xa0, 0xa0), (0x1680, 0x1680), (0x2000, 0x200a),
  (0x2028, 0x2029), (0x202f, 0x202f), (0x205f, 0x205f), (0x3000, 0x3000)]

/-- Whether a character is a blank. -/
def isBlank (c : Char) : Bool := inRanges blankRanges c.toNat

/-- A list of characters without the ones at its ends that satisfy a test. -/
def trimBoth (p : Char → Bool) (text : List Char) : List Char :=
  ((text.dropWhile p).reverse.dropWhile p).reverse

/-- A text without blanks at its ends. -/
def trim (text : String) : String := String.ofList (trimBoth isBlank text.toList)

/-- Splits off words, with the reversed word that has begun. -/
def wordsFrom (word : List Char) : List Char → List (List Char)
  | [] => if word.isEmpty then [] else [word.reverse]
  | c :: rest =>
    if isBlank c then
      if word.isEmpty then wordsFrom [] rest else word.reverse :: wordsFrom [] rest
    else wordsFrom (c :: word) rest

/-- The words of a text: its maximal pieces without blanks, in order. -/
def words (text : String) : List String := (wordsFrom [] text.toList).map String.ofList

end VideoCatalog.Text
