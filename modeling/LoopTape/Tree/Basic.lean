namespace LoopTape

/-!
# Trees of loops

The loop structure of a program is a row of nodes.  A node is a leaf, which
carries a text, or a loop, whose body is again a row of nodes.  Reading a
program makes leaves of one character each, but a tree may be built by hand
with leaves of any text.

A row is written as a first node followed by the rest of the row.  A loop then
has two subtrees, its body and the rest of its row, and plain structural
recursion reaches every node at every level.
-/

/-- A row of nodes. -/
inductive Tree where
  /-- The empty row. -/
  | nil
  /-- A leaf, then the rest of the row. -/
  | leaf (text : List Char) (rest : Tree)
  /-- A loop, then the rest of the row. -/
  | loop (body rest : Tree)
  deriving DecidableEq

namespace Tree

/-- The number of nodes in the row itself, loops counted as one node each. -/
def length : Tree -> Nat
  | nil => 0
  | leaf _ rest => rest.length + 1
  | loop _ rest => rest.length + 1

/-- One row after another. -/
def append : Tree -> Tree -> Tree
  | nil, row => row
  | leaf text rest, row => .leaf text (rest.append row)
  | loop body rest, row => .loop body (rest.append row)

instance : Append Tree := ⟨append⟩

/-- The nodes of the first row, last node first, in front of the second row. -/
def reverseOnto : Tree -> Tree -> Tree
  | nil, row => row
  | leaf text rest, row => rest.reverseOnto (.leaf text row)
  | loop body rest, row => rest.reverseOnto (.loop body row)

/-- The row with its nodes in the opposite order.  Bodies stay as they are. -/
def reverse (row : Tree) : Tree := row.reverseOnto nil

/-- The number of nodes and of rows together, at every level.  Every walk over
the tree that takes one node or ends one row at a time makes this many moves. -/
def extent : Tree -> Nat
  | nil => 1
  | leaf _ rest => rest.extent + 1
  | loop body rest => body.extent + rest.extent + 1

/-- The extent of all rows that a walk has still to go through. -/
def pendingExtent : List Tree -> Nat
  | [] => 0
  | row :: outer => row.extent + pendingExtent outer

theorem leaf_append (text : List Char) (rest row : Tree) :
    leaf text rest ++ row = leaf text (rest ++ row) := rfl

theorem loop_append (body rest row : Tree) : loop body rest ++ row = loop body (rest ++ row) := rfl

theorem append_nil (row : Tree) : row ++ nil = row := by
  induction row with
  | nil => rfl
  | leaf text rest inductionHypothesis => rw [leaf_append, inductionHypothesis]
  | loop body rest _ inductionHypothesis => rw [loop_append, inductionHypothesis]

end Tree
end LoopTape
