import LoopTape.Tape

namespace LoopTape
namespace Tape

/-!
# Turned tapes

The cells of a tape lie on a circle.  A tape is turned by moving everything on
it, the pointer included, by the same number of cells around the circle.  The
number may be negative, and it may be larger than the circle.

No cell is special to any operation.  What is done to a tape that was turned is
what would have been done to the tape before, turned.  The blank tape has no
mark on it besides its pointer, so moving this pointer is the same as turning
the blank tape.
-/

/-! ## Cells at a distance -/

/-- The cell that lies `shift` cells up from another. -/
def upFrom (cell : Fin size) (shift : Int) : Fin size :=
  ⟨((cell.val + shift) % (size : Int)).toNat, by
    rw [Int.toNat_lt (Int.emod_nonneg _ (by decide))]
    exact Int.emod_lt_of_pos _ (by decide)⟩

theorem upFrom_val (cell : Fin size) (shift : Int) :
    ((upFrom cell shift).val : Int) = (cell.val + shift) % (size : Int) :=
  Int.toNat_of_nonneg (Int.emod_nonneg _ (by decide))

theorem upFrom_eq_iff (cell other : Fin size) (shift : Int) :
    other = upFrom cell shift ↔ (other.val : Int) = (cell.val + shift) % (size : Int) := by
  rw [← upFrom_val, Int.natCast_inj, Fin.ext_iff]

theorem upFrom_upFrom (cell : Fin size) (first second : Int) :
    upFrom (upFrom cell first) second = upFrom cell (first + second) := by
  rw [upFrom_eq_iff, upFrom_val, upFrom_val, Int.emod_add_emod, Int.add_assoc]

theorem upFrom_zero (cell : Fin size) : upFrom cell 0 = cell := by
  apply Eq.symm
  rw [upFrom_eq_iff, Int.add_zero, ← Int.natCast_emod, Nat.mod_eq_of_lt cell.isLt]

theorem upFrom_one (cell : Fin size) : upFrom cell 1 = cell + 1 := by
  apply Eq.symm
  rw [upFrom_eq_iff, Fin.val_add, Int.natCast_emod]
  rfl

theorem upFrom_neg_one (cell : Fin size) : upFrom cell (-1) = cell - 1 := by
  apply Eq.symm
  rw [upFrom_eq_iff, Fin.sub_def]
  simp only [size, Fin.val_one]
  omega

theorem upFrom_neg (cell : Fin size) (shift : Int) : upFrom (upFrom cell shift) (-shift) = cell := by
  rw [upFrom_upFrom, Int.add_right_neg, upFrom_zero]

theorem upFrom_neg_left (cell : Fin size) (shift : Int) :
    upFrom (upFrom cell (-shift)) shift = cell := by
  rw [upFrom_upFrom, Int.add_left_neg, upFrom_zero]

/-! ## The tape as a whole -/

/-- One tape holds what the other holds, all of it `shift` cells further up. -/
structure Turned (shift : Int) (tape turned : Tape) : Prop where
  pointer : (turned.pointer.val : Int) = (tape.pointer.val + shift) % (size : Int)
  cells : forall start stop : Fin size,
    (stop.val : Int) = (start.val + shift) % (size : Int) -> turned.cells[stop] = tape.cells[start]

/-- Turn a tape. -/
def turn (shift : Int) (tape : Tape) : Tape where
  cells := Vector.ofFn (fun cell => tape.cells[upFrom cell (-shift)])
  pointer := upFrom tape.pointer shift

theorem turn_cells (shift : Int) (tape : Tape) (cell : Fin size) :
    (tape.turn shift).cells[upFrom cell shift] = tape.cells[cell] := by
  simp only [turn, Fin.getElem_fin, Vector.getElem_ofFn, Fin.eta, upFrom_neg]

/-- A turned tape can be told from where its cells and its pointer are. -/
theorem turned_iff (shift : Int) (tape other : Tape) :
    Turned shift tape other ↔ other = tape.turn shift := by
  constructor
  · intro turned
    rcases other with ⟨cells, pointer⟩
    have samePointer : pointer = upFrom tape.pointer shift :=
      (upFrom_eq_iff _ _ _).mpr turned.pointer
    have sameCells : cells = (tape.turn shift).cells := by
      apply Vector.ext
      intro index inside
      rw [turn, Vector.getElem_ofFn]
      apply turned.cells _ ⟨index, inside⟩
      rw [← upFrom_eq_iff, upFrom_neg_left]
    rw [samePointer, sameCells]
    rfl
  · rintro rfl
    refine ⟨upFrom_val _ _, ?_⟩
    intro start stop reached
    rw [← upFrom_eq_iff] at reached
    rw [reached]
    exact turn_cells shift tape start

theorem turn_cell (shift : Int) (tape : Tape) : (tape.turn shift).cell = tape.cell :=
  turn_cells shift tape tape.pointer

theorem turn_modify (shift : Int) (change : UInt8 -> UInt8) (tape : Tape) :
    (tape.turn shift).modify change = (tape.modify change).turn shift := by
  apply (turned_iff _ _ _).mp
  refine ⟨upFrom_val _ _, ?_⟩
  intro start stop reached
  rw [← upFrom_eq_iff] at reached
  rw [reached]
  by_cases here : start = tape.pointer
  · rw [here]
    change ((tape.turn shift).modify change).cell = (tape.modify change).cell
    rw [cell_modify, cell_modify, turn_cell]
  · have apart : upFrom tape.pointer shift ≠ upFrom start shift := by
      intro same
      apply here
      rw [← upFrom_neg start shift, ← same, upFrom_neg]
    have kept := turn_cells shift tape start
    simp only [Fin.getElem_fin] at kept ⊢
    simp only [modify]
    rw [Vector.getElem_set_ne, Vector.getElem_set_ne]
    · exact kept
    · exact fun same => here (Fin.ext same).symm
    · exact fun same => apart (Fin.ext same)

theorem turn_moveRight (shift : Int) (tape : Tape) :
    (tape.turn shift).moveRight = tape.moveRight.turn shift := by
  simp only [moveRight, turn, ← upFrom_one, upFrom_upFrom, Int.add_comm]

theorem turn_moveLeft (shift : Int) (tape : Tape) :
    (tape.turn shift).moveLeft = tape.moveLeft.turn shift := by
  simp only [moveLeft, turn, ← upFrom_neg_one, upFrom_upFrom, Int.add_comm]

/-! ## Symmetries -/

/-- A map of tapes that no operation on a tape can tell from doing nothing. -/
structure Symmetry where
  carry : Tape -> Tape
  cell : forall tape, (carry tape).cell = tape.cell
  modify : forall change tape, (carry tape).modify change = carry (tape.modify change)
  moveRight : forall tape, (carry tape).moveRight = carry tape.moveRight
  moveLeft : forall tape, (carry tape).moveLeft = carry tape.moveLeft

/-- The circle has no cell that differs from the others. -/
theorem exists_symmetry (shift : Int) :
    Exists fun symmetry : Symmetry =>
      forall tape other, Turned shift tape other ↔ other = symmetry.carry tape :=
  ⟨⟨turn shift, turn_cell shift, turn_modify shift, turn_moveRight shift, turn_moveLeft shift⟩,
    turned_iff shift⟩

/-! ## The blank tape -/

/-- The blank tape with its pointer at a distance from the first cell. -/
def blankAt (shift : Int) : Tape := { blank with pointer := upFrom blank.pointer shift }

theorem blankAt_zero : blankAt 0 = blank := by
  rw [blankAt, upFrom_zero]

theorem turned_blank (shift : Int) : Turned shift blank (blankAt shift) := by
  refine ⟨upFrom_val _ _, ?_⟩
  intro start stop _
  simp only [blankAt, blank, Fin.getElem_fin, Vector.getElem_replicate]

theorem blankAt_moveRight (shift : Int) : (blankAt shift).moveRight = blankAt (shift + 1) := by
  simp only [blankAt, moveRight, ← upFrom_one, upFrom_upFrom]

theorem blankAt_moveLeft (shift : Int) : (blankAt shift).moveLeft = blankAt (shift + -1) := by
  simp only [blankAt, moveLeft, ← upFrom_neg_one, upFrom_upFrom]

end Tape
end LoopTape
