import LoopTape.Proofs.Bracket.Stripping
import LoopTape.Proofs.Machine.Relocating

namespace LoopTape
namespace Machine

open LoopTape.Bracket

/-!
# Comments change nothing

A text and its instructions alone are run alike, on every text and with every
budget.  All that differs is where things stand: the counter, and the position
that a fault reports, become the number of instructions in front of them.

The budget is asked for before an instruction and never before a comment.  A run
that has used up its budget therefore still comes to the end of a text in which
only comments are left, just as the run without them has come to its end.
-/

theorem relocate_fresh (source : List Char) :
    (View.relocate (codeBefore source)).state .fresh = .fresh := rfl

theorem ends_codeOnly_iff (source : List Char) (limit : Option Nat) (state : State)
    (finish : Finish) :
    (Machine.mk (Instruction.codeOnly source) limit).Ends
        ((View.relocate (codeBefore source)).state state) finish ↔
      Exists fun whole => (Machine.mk source limit).Ends state whole ∧
        finish = (View.relocate (codeBefore source)).finish whole := by
  apply ends_relocate_iff_of_covers (relocation_codeOnly source)
  intro position outside
  exact Nat.le_of_eq (codeBefore_of_length_le outside).symm

/-- A text with comments and its instructions alone return, fail and go on for
ever alike.  In the end they have the same tape and pointer, and have printed and
counted the same.  A fault is of the same kind with the same numbers, and it
reports the number of instructions in front of the position that it reports with
the comments. -/
theorem comments_change_nothing (source : List Char) (limit : Option Nat) :
    (forall finish,
      (Exists fun patience =>
          (Machine.mk (Instruction.codeOnly source) limit).execute patience = some finish) ↔
        Exists fun whole =>
          (Exists fun patience => (Machine.mk source limit).execute patience = some whole) ∧
            finish = (View.relocate (codeBefore source)).finish whole) ∧
    ((forall patience, (Machine.mk (Instruction.codeOnly source) limit).execute patience = none) ↔
      forall patience, (Machine.mk source limit).execute patience = none) := by
  have alike := ends_codeOnly_iff source limit .fresh
  rw [relocate_fresh] at alike
  simp only [exists_execute_iff_ends, forall_execute_eq_none_iff]
  refine ⟨alike, ?_, ?_⟩
  · intro never whole ends
    exact never _ ((alike _).mpr ⟨whole, ends, rfl⟩)
  · intro never finish ends
    rcases (alike finish).mp ends with ⟨whole, wholeEnds, _⟩
    exact never whole wholeEnds

end Machine
end LoopTape
