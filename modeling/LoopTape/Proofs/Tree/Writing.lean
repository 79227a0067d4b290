import LoopTape.Tree.Emission

namespace LoopTape
namespace Tree

/-!
# Writing with pending rows

A tree is written by going through rows that are pending, and its text is also
given by structural recursion.  The two agree because what is still to be
written can be read off the pending rows: the row on top, then for each row
below it the closing bracket of the loop just finished and the row itself.
-/

/-- What is still to be written when the given rows are pending. -/
def pendingText : List Tree -> List Char
  | [] => []
  | [row] => row.text
  | row :: below :: outer => row.text ++ ']' :: pendingText (below :: outer)

theorem pendingText_nil_cons (below : Tree) (outer : List Tree) :
    pendingText (nil :: below :: outer) = ']' :: pendingText (below :: outer) :=
  rfl

theorem pendingText_leaf_cons (characters : List Char) (rest : Tree) (outer : List Tree) :
    pendingText (leaf characters rest :: outer) = characters ++ pendingText (rest :: outer) := by
  cases outer with
  | nil => rfl
  | cons below outer => exact List.append_assoc characters rest.text _

theorem pendingText_loop_cons (body rest : Tree) (outer : List Tree) :
    pendingText (loop body rest :: outer) = '[' :: pendingText (body :: rest :: outer) := by
  cases outer with
  | nil => rfl
  | cons below outer =>
      simp only [pendingText, text, List.cons_append, List.append_assoc]

theorem emitFrom_eq (written : List Char) (rows : List Tree) :
    emitFrom written rows = written.reverse ++ pendingText rows := by
  induction written, rows using emitFrom.induct with
  | case1 written => rw [emitFrom, pendingText, List.append_nil]
  | case2 written => rw [emitFrom, pendingText, text, List.append_nil]
  | case3 written below outer inductionHypothesis =>
      rw [emitFrom, inductionHypothesis, pendingText_nil_cons, List.reverse_cons,
        List.append_assoc, List.singleton_append]
  | case4 written characters rest outer inductionHypothesis =>
      rw [List.unattach_reverse, List.unattach_attach] at inductionHypothesis
      rw [emitFrom, inductionHypothesis, pendingText_leaf_cons, List.reverse_append,
        List.reverse_reverse, List.append_assoc]
  | case5 written body rest outer inductionHypothesis =>
      rw [emitFrom, inductionHypothesis, pendingText_loop_cons, List.reverse_cons,
        List.append_assoc, List.singleton_append]

/-- Row by row and by structural recursion the same text is written. -/
theorem emit_eq_text (tree : Tree) : tree.emit = tree.text := by
  rw [emit, emitFrom_eq]
  rfl

end Tree
end LoopTape
