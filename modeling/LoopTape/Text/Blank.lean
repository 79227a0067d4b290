import LoopTape.Text.Class

namespace LoopTape
namespace Text

/-!
# Blanks

Blanks are the spaces, tabs and line ends of all scripts, together with the
four separators of files, groups, records and units.  Characters of no width
and the byte-order mark are not blanks.
-/

/-- The code points of the blanks. -/
def blanks : List (Nat × Nat) := [
  (0x9, 0xd), (0x1c, 0x20), (0x85, 0x85), (0xa0, 0xa0), (0x1680, 0x1680), (0x2000, 0x200a),
  (0x2028, 0x2029), (0x202f, 0x202f), (0x205f, 0x205f), (0x3000, 0x3000)]

/-- Whether a character is a blank. -/
def isBlank (character : Char) : Bool := within character.toNat blanks

/-- Whether a character is one of the four separators. -/
def isSeparator (character : Char) : Bool := within character.toNat [(0x1c, 0x1f)]

/-- A text without the characters at its two ends that the test accepts. -/
def trim (accepts : Char -> Bool) (text : List Char) : List Char :=
  ((text.dropWhile accepts).reverse.dropWhile accepts).reverse

/-- A text without the blanks at its two ends. -/
def strip (text : List Char) : List Char := trim isBlank text

end Text
end LoopTape
