import FloorPlan.Text.Ranges

/-! # Blank characters

The characters that may stand between two tokens and around a setting's value. Besides the
ASCII blanks these are the information separators, the next-line control and the Unicode
spaces and line ends. -/

namespace FloorPlan.Text

/-- The code points of the blank characters. -/
def blankRanges : Ranges :=
  [(0x09, 0x0d), (0x1c, 0x20), (0x85, 0x85), (0xa0, 0xa0), (0x1680, 0x1680),
   (0x2000, 0x200a), (0x2028, 0x2029), (0x202f, 0x202f), (0x205f, 0x205f), (0x3000, 0x3000)]

/-- Whether a character is blank. -/
def isBlank (c : Char) : Bool := blankRanges.contains c

/-- A list of characters without the ones at both ends that satisfy `p`. -/
def stripBy (p : Char → Bool) (cs : List Char) : List Char :=
  ((cs.dropWhile p).reverse.dropWhile p).reverse

/-- A text without the blanks at both ends. -/
def strip (s : String) : String := String.ofList (stripBy isBlank s.toList)

end FloorPlan.Text
