import LoopTape.Text.Decimal
import LoopTape.Text.Lines

namespace LoopTape
namespace Report

/-!
# Excerpts

An excerpt shows a line of a text together with the lines around it.  Each row
gives the number of its line, counted from one and set at the right end of a
field of four characters, and then the line.  A mark at the beginning of a row
singles out the line that was asked for.

Both the line and the number of lines around it may be any integers.  A line
below the first counts as the first.  The window is cut off at both ends of
the text, and it may be empty.
-/

/-- One line of an excerpt. -/
structure Row where
  marked : Bool
  number : Nat
  text : List Char
  deriving DecidableEq

/-- The row as it is printed. -/
def Row.render (row : Row) : List Char :=
  (if row.marked then '>' else ' ') :: ' ' ::
    (Text.alignRight 4 (Text.natural row.number) ++ " | ".toList ++ row.text)

/-- The lines from one number to another, each with its number. -/
def numbered (lines : List (List Char)) (first last : Int) : List (Nat × List Char) :=
  (((lines.zipIdx 1).drop (first - 1).toNat).take (last - first + 1).toNat).map
    (fun entry => (entry.2, entry.1))

/-- The rows of the window around a line. -/
def excerpt (lines : List (List Char)) (line around : Int) : List Row :=
  let focus := max 1 line
  let first := max 1 (focus - around)
  let last := min (lines.length : Int) (focus + around)
  (numbered lines first last).map
    (fun entry => ⟨decide ((entry.1 : Int) = focus), entry.1, entry.2⟩)

/-- How many lines are shown on either side of the line of a failure. -/
def contextLines : Int := 2

/-- An excerpt as it is printed. -/
def excerptText (lines : List (List Char)) (line around : Int) : List Char :=
  Text.unlines ((excerpt lines line around).map Row.render)

end Report
end LoopTape
