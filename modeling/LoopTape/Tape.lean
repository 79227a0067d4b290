namespace LoopTape

/-!
# The circular tape

The tape has 30000 cells of eight bits each and a pointer to one of them.
Nothing about it has an edge.  A cell counts modulo 256, so that increment
and decrement undo one another everywhere, and the pointer counts modulo the
number of cells, so that the last cell is the left neighbour of the first.

The number of cells and the range of a cell are part of the types.  No
operation on a tape can therefore fail, and none needs a check.
-/

/-- The number of cells. -/
abbrev Tape.size : Nat := 30000

/-- The bits of a cell, as a mask: every cell holds a number up to this one. -/
def Tape.cellMask : Nat := 255

/-- The cells and the place of the pointer. -/
structure Tape where
  cells : Vector UInt8 Tape.size
  pointer : Fin Tape.size
  deriving DecidableEq

namespace Tape

/-- Every cell is zero and the pointer is at the first of them. -/
def blank : Tape := ⟨Vector.replicate size 0, 0⟩

/-- Make every cell zero and put the pointer back to the first of them. -/
def clear (tape : Tape) : Tape where
  cells := tape.cells.map (fun _ => 0)
  pointer := 0

/-- The cell under the pointer. -/
def cell (tape : Tape) : UInt8 := tape.cells[tape.pointer]

/-- Replace the cell under the pointer by a function of it. -/
def modify (change : UInt8 -> UInt8) (tape : Tape) : Tape :=
  let pointer := tape.pointer
  let value := change tape.cell
  { tape with cells := tape.cells.set pointer value }

/-- Add one to the cell under the pointer; 255 becomes zero. -/
def increment (tape : Tape) : Tape := tape.modify (fun value => value + 1)

/-- Subtract one from the cell under the pointer; zero becomes 255. -/
def decrement (tape : Tape) : Tape := tape.modify (fun value => value - 1)

/-- Move the pointer one cell up; from the last cell it comes to the first. -/
def moveRight (tape : Tape) : Tape := { tape with pointer := tape.pointer + 1 }

/-- Move the pointer one cell down; from the first cell it comes to the last. -/
def moveLeft (tape : Tape) : Tape := { tape with pointer := tape.pointer - 1 }

/-- The cells that are not zero, each with its index, by increasing index. -/
def nonzero (tape : Tape) : List (Nat × UInt8) :=
  (tape.cells.toList.zipIdx.filter (fun entry => entry.1 != 0)).map (fun entry => (entry.2, entry.1))

/-- Nothing of a tape is left when it is cleared. -/
theorem clear_eq_blank (tape : Tape) : tape.clear = blank := by
  rw [clear, Vector.map_const']
  rfl

/-! ## The moves and the counts undo one another -/

theorem moveLeft_moveRight (tape : Tape) : tape.moveRight.moveLeft = tape := by
  cases tape
  simp only [moveRight, moveLeft, mk.injEq, true_and]
  grind

theorem moveRight_moveLeft (tape : Tape) : tape.moveLeft.moveRight = tape := by
  cases tape
  simp only [moveRight, moveLeft, mk.injEq, true_and]
  grind

theorem cell_modify (change : UInt8 -> UInt8) (tape : Tape) :
    (tape.modify change).cell = change tape.cell := by
  simp [modify, cell]

/-- Two changes of one cell are one change of it by the composed function. -/
theorem modify_modify (first second : UInt8 -> UInt8) (tape : Tape) :
    (tape.modify first).modify second = tape.modify (fun value => second (first value)) := by
  simp [modify, cell]

/-- Replacing a cell by itself changes nothing. -/
theorem modify_id (tape : Tape) : tape.modify (fun value => value) = tape := by
  simp [modify, cell]

theorem decrement_increment (tape : Tape) : tape.increment.decrement = tape := by
  simp [increment, decrement, modify_modify, modify_id]

theorem increment_decrement (tape : Tape) : tape.decrement.increment = tape := by
  simp [increment, decrement, modify_modify, modify_id]

end Tape
end LoopTape
