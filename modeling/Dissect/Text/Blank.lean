/-
# Blanks

A blank is a character that `strip` removes: white space in the sense of Unicode 14.0 together with
the four information separators U+001C to U+001F.  This is wider than ASCII white space, and
settings, tool output and `.env` lines are all trimmed by it.
-/
import Dissect.Text.Printable

namespace Dissect.Text

/-- The code points of the blanks. -/
def blankRanges : List CodeRange :=
  [(0x9, 0xd), (0x1c, 0x20), (0x85, 0x85), (0xa0, 0xa0), (0x1680, 0x1680), (0x2000, 0x200a),
   (0x2028, 0x2029), (0x202f, 0x202f), (0x205f, 0x205f), (0x3000, 0x3000)]

/-- The character is white space. -/
def isBlank (c : Char) : Bool := inRanges blankRanges c.toNat

/-- The characters without the blanks at their start. -/
def trimStart (cs : List Char) : List Char := cs.dropWhile isBlank

/-- The characters without the blanks at their end. -/
def trimEnd (cs : List Char) : List Char := (cs.reverse.dropWhile isBlank).reverse

/-- The characters without the blanks at either end. -/
def trim (cs : List Char) : List Char := trimEnd (trimStart cs)

/-- The text without the blanks at either end. -/
def strip (s : String) : String := String.ofList (trim s.toList)

/-- The text without the blanks at its end. -/
def stripEnd (s : String) : String := String.ofList (trimEnd s.toList)

/-- The text has no character other than blanks. -/
def allBlank (s : String) : Bool := s.toList.all isBlank

end Dissect.Text
