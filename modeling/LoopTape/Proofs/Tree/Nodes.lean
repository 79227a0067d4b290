import Mathlib.Algebra.GroupWithZero.Nat
import LoopTape.Proofs.Text.Lines
import LoopTape.Proofs.Tree.Listings
import LoopTape.Proofs.Tree.Writing
import LoopTape.Tree.Measure

namespace LoopTape
namespace Tree

/-!
# Rows as lists of nodes

A row is built from a first node and the rest of the row, and what is defined by recursion
follows this shape.  A reader thinks of a row as a list of nodes, each a leaf with its text or
a loop with a body of its own.  The two views agree: what the recursion gives for a row is put
together from what it gives for the nodes of the row.

For texts the nodes are written one behind another.  For listings there is something between
two nodes, and the walk over the pending rows does not look back to see whether a node has
been written before.  It has a flag for this, and there is only one flag for all pending rows.
That is enough because a row that waits has always had a node, the loop that is being listed
above it, so only the row on top can be at its first node.
-/

/-- A node of a row. -/
inductive Node where
  | leaf (text : List Char)
  | loop (body : Tree)
  deriving DecidableEq

/-- The nodes of a row, in order. -/
def nodes : Tree -> List Node
  | nil => []
  | leaf characters rest => .leaf characters :: rest.nodes
  | loop body rest => .loop body :: rest.nodes

/-- What a node comes to, by the text of a leaf or by the body of a loop. -/
def Node.either {Result : Type} (ofText : List Char -> Result) (ofBody : Tree -> Result) :
    Node -> Result
  | leaf text => ofText text
  | loop body => ofBody body

/-! ## Texts and listings -/

theorem text_eq_flatMap_nodes (tree : Tree) :
    tree.text = tree.nodes.flatMap (Node.either id (fun body => '[' :: (body.text ++ [']']))) := by
  induction tree with
  | nil => rfl
  | leaf characters rest inductionHypothesis =>
      rw [text, nodes, List.flatMap_cons, inductionHypothesis]
      rfl
  | loop body rest _ inductionHypothesis =>
      rw [text, nodes, List.flatMap_cons, inductionHypothesis, Node.either, List.cons_append,
        List.append_assoc, List.singleton_append]

theorem items_eq_map_nodes (tree : Tree) :
    tree.items = tree.nodes.map (Node.either Text.quoted nested) := by
  induction tree with
  | nil => rfl
  | leaf characters rest inductionHypothesis =>
      rw [items, nodes, List.map_cons, inductionHypothesis, Node.either]
  | loop body rest _ inductionHypothesis =>
      rw [items, nodes, List.map_cons, inductionHypothesis, Node.either, nested]

/-- Behind its opening bracket a row is listed as its joined nodes, and behind one of its
nodes every further node has a separator in front. -/
theorem rowListing_eq (row : Tree) :
    rowListing true row = separator.intercalate row.items ++ [']'] ∧
      rowListing false row = row.items.flatMap (fun item => separator ++ item) ++ [']'] := by
  induction row with
  | nil => exact ⟨rfl, rfl⟩
  | leaf characters rest inductionHypothesis =>
      rcases inductionHypothesis with ⟨_, behind⟩
      rw [items, Text.intercalate_cons, List.flatMap_cons, rowListing, rowListing, behind]
      simp only [lead, if_true, Bool.false_eq_true, if_false, List.nil_append, List.append_assoc,
        and_self]
  | loop body rest bodyHypothesis restHypothesis =>
      rcases bodyHypothesis with ⟨inside, _⟩
      rcases restHypothesis with ⟨_, behind⟩
      rw [items, Text.intercalate_cons, List.flatMap_cons, rowListing, rowListing, inside, behind]
      simp only [lead, if_true, Bool.false_eq_true, if_false, List.nil_append, List.append_assoc,
        List.cons_append, and_self]

/-- Row by row and by structural recursion the same listing is made. -/
theorem listing_eq_nested (tree : Tree) : tree.listing = tree.nested := by
  rw [listing_eq, (rowListing_eq tree).1, nested]

/-! ## Measures -/

theorem leafCount_eq_sum_nodes (tree : Tree) :
    tree.leafCount = (tree.nodes.map (Node.either (fun _ => 1) leafCount)).sum := by
  induction tree with
  | nil => rfl
  | leaf characters rest inductionHypothesis =>
      rw [leafCount, nodes, List.map_cons, List.sum_cons, inductionHypothesis, Node.either,
        Nat.add_comm]
  | loop body rest _ inductionHypothesis =>
      rw [leafCount, nodes, List.map_cons, List.sum_cons, inductionHypothesis, Node.either]

theorem loopCount_eq_sum_nodes (tree : Tree) :
    tree.loopCount =
      (tree.nodes.map (Node.either (fun _ => 0) (fun body => body.loopCount + 1))).sum := by
  induction tree with
  | nil => rfl
  | leaf characters rest inductionHypothesis =>
      rw [loopCount, nodes, List.map_cons, List.sum_cons, inductionHypothesis, Node.either,
        Nat.zero_add]
  | loop body rest _ inductionHypothesis =>
      rw [loopCount, nodes, List.map_cons, List.sum_cons, inductionHypothesis, Node.either,
        Nat.add_right_comm]

theorem height_eq_max_nodes (tree : Tree) :
    tree.height =
      (tree.nodes.map (Node.either (fun _ => 0) (fun body => body.height + 1))).foldr max 0 := by
  induction tree with
  | nil => rfl
  | leaf characters rest inductionHypothesis =>
      rw [height, nodes, List.map_cons, List.foldr_cons, ← inductionHypothesis, Node.either,
        Nat.zero_max]
  | loop body rest _ inductionHypothesis =>
      rw [height, nodes, List.map_cons, List.foldr_cons, ← inductionHypothesis, Node.either]

/-! ## Writers -/

/-- Writing and listing with pending rows gives what structural recursion gives.  The text of
a tree is the texts of its nodes one behind another, where a leaf is its own text and a loop
its body in brackets, and the root has no brackets.  The listing of a tree is the listings of
its nodes joined by separators, in brackets at the root too, where a leaf is quoted. -/
theorem writers_follow_nodes (tree : Tree) :
    tree.emit = tree.text ∧
    tree.text = tree.nodes.flatMap (Node.either id (fun body => '[' :: (body.text ++ [']']))) ∧
    tree.listing = tree.nested ∧
    tree.nested =
      '[' :: (separator.intercalate (tree.nodes.map (Node.either Text.quoted nested)) ++
        [']']) := by
  refine ⟨emit_eq_text tree, text_eq_flatMap_nodes tree, listing_eq_nested tree, ?_⟩
  rw [nested, items_eq_map_nodes]

end Tree
end LoopTape
