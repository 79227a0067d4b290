import LoopTape.Tree.Basic

namespace LoopTape
namespace Tree

/-!
# Trees as texts

A tree is written back as a program by writing its leaves in order and putting
brackets around the body of each loop.  The row at the root has no brackets.

There are two definitions.  `text` follows the structure of the tree and says
what is written.  `emit` keeps the rows that it has still to go through in a
list of its own, so that it writes trees of any depth in constant space beside
that list.
-/

/-- The text of a tree, by structural recursion. -/
def text : Tree -> List Char
  | nil => []
  | leaf characters rest => characters ++ rest.text
  | loop body rest => '[' :: (body.text ++ ']' :: rest.text)

theorem text_append (first second : Tree) : (first ++ second).text = first.text ++ second.text := by
  induction first with
  | nil => rfl
  | leaf characters rest inductionHypothesis =>
    rw [leaf_append, text, inductionHypothesis, text, List.append_assoc]
  | loop body rest _ inductionHypothesis =>
    rw [loop_append, text, inductionHypothesis, text, List.cons_append, List.append_assoc,
      List.cons_append]

/-- Write the pending rows after what has been written, which is kept in
reverse.  The end of a row closes a loop unless the row is the root. -/
def emitFrom (written : List Char) : List Tree -> List Char
  | [] => written.reverse
  | nil :: [] => written.reverse
  | nil :: below :: outer => emitFrom (']' :: written) (below :: outer)
  | leaf characters rest :: outer => emitFrom (characters.reverse ++ written) (rest :: outer)
  | loop body rest :: outer => emitFrom ('[' :: written) (body :: rest :: outer)
termination_by rows => pendingExtent rows
decreasing_by
  all_goals simp only [pendingExtent, extent]
  all_goals omega

/-- The text of a tree, row by row. -/
def emit (tree : Tree) : List Char := emitFrom [] [tree]

end Tree
end LoopTape
