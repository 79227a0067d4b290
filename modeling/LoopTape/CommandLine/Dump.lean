import LoopTape.Text.Decimal
import LoopTape.Text.Lines

namespace LoopTape
namespace CommandLine

/-!
# Dumps of cells

A dump lists numbers in decimal, eight to a row and separated by single
spaces.  Only the last row may be shorter, and a dump of nothing has no rows.

Nothing is assumed about the size of the numbers, so there may be one that has too
many digits to be written.  A list with such a number has no dump at all.
-/

/-- How many numbers stand in a row. -/
def rowLength : Nat := 8

/-- A list cut into rows, of which only the last may be short.  A row is filled
from the front; `row` holds its beginning in reverse and `room` what it lacks. -/
def rowsFrom (row : List Int) (room : Nat) : List Int -> List (List Int)
  | [] => if row.isEmpty then [] else [row.reverse]
  | number :: rest =>
    match room with
    | 0 => row.reverse :: rowsFrom [number] (rowLength - 1) rest
    | room + 1 => rowsFrom (number :: row) room rest

/-- The rows of a dump. -/
def dumpRows (numbers : List Int) : List (List Int) := rowsFrom [] rowLength numbers

/-- A row as it is printed. -/
def rowText (row : List Int) : Except Text.NumeralFault (List Char) :=
  (row.mapM Text.checkedDecimal).map (fun words => [' '].intercalate words)

/-- A dump as it is printed. -/
def dumpText (numbers : List Int) : Except Text.NumeralFault (List Char) :=
  ((dumpRows numbers).mapM rowText).map Text.unlines

end CommandLine
end LoopTape
