import LoopTape.Text.Index

namespace LoopTape
namespace Text

/-!
# Lines

A line end separates two lines, so a text has one more line than line ends
and the empty text is one empty line.  A place in a text is given by a line
and a column, both counted from one.

The line of a position is the number of line ends before it, plus one.  The
column is the distance from the beginning of that line, plus one.  The position
may lie outside the text.  The characters before it are then those up to the
nearest end, and the column may be zero, negative or past the end of its line.
-/

/-- The lines of a text. -/
def lines (text : List Char) : List (List Char) := text.splitOn '\n'

/-- Lines joined by line ends. -/
def unlines (texts : List (List Char)) : List Char := ['\n'].intercalate texts

/-- A place in a text, counted from one. -/
structure Location where
  line : Nat
  column : Int
  deriving DecidableEq

/-- How many characters of a text stand before its last line. -/
def lastLineStart (text : List Char) : Nat :=
  text.length - (text.reverse.takeWhile (fun character => character != '\n')).length

/-- The place of a signed position. -/
def locate (text : List Char) (position : Int) : Location where
  line := (before text position).count '\n' + 1
  column := position - lastLineStart (before text position) + 1

end Text
end LoopTape
