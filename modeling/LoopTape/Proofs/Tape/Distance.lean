import Mathlib.Algebra.BigOperators.Group.List.Basic
import Mathlib.Algebra.GroupWithZero.Nat
import LoopTape.Tape

namespace LoopTape
namespace Tape

/-!
# Distances on the tape

There are two kinds of circles on a tape.  The cells lie on one, and the numbers
that a cell can hold lie on another.  On both there is a shorter way back to zero,
and its length is what a tape differs from the blank one: the pointer by its
distance from the first cell, and the cells by the sum of their distances from
zero.

One instruction moves one thing by one place.  It cannot lengthen a shortest way
by more than one, and this is so at the seam of the circle too, where the way is
zero or one.
-/

/-- The shorter way from a place on a circle to its place zero. -/
def circular (size place : Nat) : Nat := min place (size - place)

/-- How far the pointer is from the first cell. -/
def distance (tape : Tape) : Nat := circular size tape.pointer.val

/-- How far the cells are from zero, all of them together. -/
def spread (tape : Tape) : Nat :=
  (tape.cells.toList.map (fun cell => circular 256 cell.toNat)).sum

/-! ## One place further -/

theorem circular_up {size place : Nat} (inside : place < size) :
    circular size ((place + 1) % size) ≤ circular size place + 1 := by
  unfold circular
  by_cases last : place + 1 = size
  · rw [last, Nat.mod_self]
    omega
  · rw [Nat.mod_eq_of_lt (Nat.lt_of_le_of_ne inside last)]
    omega

theorem circular_down {size place : Nat} (inside : place < size) :
    circular size ((size - 1 + place) % size) ≤ circular size place + 1 := by
  unfold circular
  cases place with
  | zero =>
      rw [Nat.add_zero, Nat.mod_eq_of_lt (Nat.sub_lt inside Nat.one_pos)]
      omega
  | succ below =>
      have around : size - 1 + (below + 1) = size + below := by omega
      rw [around, Nat.add_mod_left, Nat.mod_eq_of_lt (Nat.lt_of_succ_lt inside)]
      omega

theorem distance_moveRight_le (tape : Tape) : tape.moveRight.distance ≤ tape.distance + 1 := by
  have moved : tape.moveRight.pointer.val = (tape.pointer.val + 1) % size := Fin.val_add _ _
  rw [distance, moved]
  exact circular_up tape.pointer.isLt

theorem distance_moveLeft_le (tape : Tape) : tape.moveLeft.distance ≤ tape.distance + 1 := by
  have moved : tape.moveLeft.pointer.val = (size - 1 + tape.pointer.val) % size :=
    congrArg Fin.val (Fin.sub_def _ _)
  rw [distance, moved]
  exact circular_down tape.pointer.isLt

/-! ## What stays

A move leaves the cells alone, and a change leaves the pointer alone. -/

theorem spread_moveRight (tape : Tape) : tape.moveRight.spread = tape.spread := by
  rw [spread, spread, moveRight]

theorem spread_moveLeft (tape : Tape) : tape.moveLeft.spread = tape.spread := by
  rw [spread, spread, moveLeft]

theorem distance_modify (change : UInt8 -> UInt8) (tape : Tape) :
    (tape.modify change).distance = tape.distance := by
  rw [distance, distance, modify]

/-! ## One cell changed -/

theorem sum_set_le {numbers : List Nat} {index number : Nat} (inside : index < numbers.length)
    (near : number ≤ numbers[index] + 1) : (numbers.set index number).sum ≤ numbers.sum + 1 := by
  have parts := List.sum_set numbers index numbers[index]
  rw [List.set_getElem_self, if_pos inside] at parts
  rw [List.sum_set, if_pos inside, parts]
  omega

theorem spread_modify_le {change : UInt8 -> UInt8} {tape : Tape}
    (near : circular 256 (change tape.cell).toNat ≤ circular 256 tape.cell.toNat + 1) :
    (tape.modify change).spread ≤ tape.spread + 1 := by
  simp only [spread, modify, Vector.toList_set, List.map_set]
  have inside : tape.pointer.val <
      (tape.cells.toList.map (fun cell => circular 256 cell.toNat)).length := by
    rw [List.length_map, Vector.length_toList]
    exact tape.pointer.isLt
  apply sum_set_le inside
  rw [List.getElem_map]
  exact near

theorem spread_increment_le (tape : Tape) : tape.increment.spread ≤ tape.spread + 1 := by
  apply spread_modify_le
  rw [UInt8.toNat_add]
  exact circular_up tape.cell.toNat_lt

theorem spread_decrement_le (tape : Tape) : tape.decrement.spread ≤ tape.spread + 1 := by
  apply spread_modify_le
  rw [UInt8.toNat_sub]
  exact circular_down tape.cell.toNat_lt

/-! ## Cells that are not zero -/

theorem countP_le_sum (cells : List UInt8) :
    cells.countP (fun cell => cell != 0) ≤ (cells.map (fun cell => circular 256 cell.toNat)).sum := by
  induction cells with
  | nil => exact Nat.le_refl 0
  | cons cell rest inductionHypothesis =>
      rw [List.countP_cons, List.map_cons, List.sum_cons, Nat.add_comm]
      apply Nat.add_le_add _ inductionHypothesis
      by_cases zero : cell = 0
      · simp [zero]
      · have positive : cell.toNat ≠ 0 := fun none => zero (UInt8.toNat_inj.mp none)
        have small := cell.toNat_lt
        simp only [bne_iff_ne, ne_eq, zero, not_false_eq_true, if_true, circular]
        omega

/-- Each cell that is not zero is at least one away from it. -/
theorem length_nonzero_le_spread (tape : Tape) : tape.nonzero.length ≤ tape.spread := by
  have counted : tape.nonzero.length = tape.cells.toList.countP (fun cell => cell != 0) := by
    rw [nonzero, List.length_map, ← List.countP_eq_length_filter]
    conv_rhs => rw [← List.zipIdx_map_fst 0 tape.cells.toList, List.countP_map]
    rfl
  rw [counted]
  exact countP_le_sum _

/-! ## The blank tape -/

theorem spread_blank : blank.spread = 0 := by
  simp only [spread, blank, Vector.toList_replicate, List.map_replicate, List.sum_replicate]
  rfl

theorem distance_blank : blank.distance = 0 := Nat.zero_min _

end Tape
end LoopTape
