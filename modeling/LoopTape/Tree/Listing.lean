import LoopTape.Text.Quoted
import LoopTape.Tree.Basic

namespace LoopTape
namespace Tree

/-!
# Listings

A listing shows the structure of a tree.  Every row, the root included, stands
in square brackets with its nodes separated by a comma and a space.  A leaf is
shown as a quoted text, so that leaves which hold brackets, commas or quotes
cannot be mistaken for structure.

As for plain texts there are two definitions.  `nested` joins the listings of
the nodes of each row.  `listing` walks over the pending rows and remembers
only whether the next node is the first of its row.
-/

/-- What stands between two nodes of a row. -/
def separator : List Char := ", ".toList

/-- The nodes of a row, each as it is listed. -/
def items : Tree -> List (List Char)
  | nil => []
  | leaf characters rest => Text.quoted characters :: rest.items
  | loop body rest => ('[' :: (separator.intercalate body.items ++ [']'])) :: rest.items

/-- The listing of a tree, by structural recursion. -/
def nested (tree : Tree) : List Char := '[' :: (separator.intercalate tree.items ++ [']'])

/-- What has been written, in reverse, once the next node may follow. -/
def separated (first : Bool) (written : List Char) : List Char :=
  if first then written else separator.reverse ++ written

/-- List the pending rows after what has been written, which is kept in
reverse.  `first` tells whether the next node is the first of its row. -/
def listFrom (first : Bool) (written : List Char) : List Tree -> List Char
  | [] => written.reverse
  | nil :: outer => listFrom false (']' :: written) outer
  | leaf characters rest :: outer =>
    listFrom false ((Text.quoted characters).reverse ++ separated first written) (rest :: outer)
  | loop body rest :: outer =>
    listFrom true ('[' :: separated first written) (body :: rest :: outer)
termination_by rows => pendingExtent rows
decreasing_by
  all_goals simp only [pendingExtent, extent]
  all_goals omega

/-- The listing of a tree, row by row. -/
def listing (tree : Tree) : List Char := listFrom true ['['] [tree]

end Tree
end LoopTape
