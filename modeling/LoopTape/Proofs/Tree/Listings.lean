import LoopTape.Proofs.Text.Quoting
import LoopTape.Tree.Listing

namespace LoopTape
namespace Tree

/-!
# Listings tell trees apart

A listing is written row by row, with one flag that says whether the next node is
the first of its row.  What is still to be written can be read off the pending rows:
the flag belongs to the row on top, and every row below it has had a node already,
the loop that is being listed.

Two trees with the same listing are the same.  At every place of a listing the next
character decides what stands there.  A bracket ends the row or opens a loop, a mark
begins a leaf, and a comma stands before every node but the first.  What a leaf holds
does not matter for this, because a quoted text tells where it ends.
-/

/-- What stands before a node of a row. -/
def lead (first : Bool) : List Char := if first then [] else separator

/-- What is written of a row behind its opening bracket, or behind a node of it. -/
def rowListing (first : Bool) : Tree -> List Char
  | nil => [']']
  | leaf characters rest => lead first ++ (Text.quoted characters ++ rowListing false rest)
  | loop body rest => lead first ++ '[' :: (rowListing true body ++ rowListing false rest)

/-- What is still to be written when the given rows are pending. -/
def pendingListing (first : Bool) : List Tree -> List Char
  | [] => []
  | row :: outer => rowListing first row ++ pendingListing false outer

/-! ## Row by row and by structural recursion -/

theorem reverse_separated (first : Bool) (written : List Char) :
    (separated first written).reverse = written.reverse ++ lead first := by
  cases first with
  | true => exact (List.append_nil _).symm
  | false =>
      rw [separated, if_neg Bool.false_ne_true, List.reverse_append, List.reverse_reverse]
      rfl

theorem listFrom_eq (first : Bool) (written : List Char) (rows : List Tree) :
    listFrom first written rows = written.reverse ++ pendingListing first rows := by
  induction first, written, rows using listFrom.induct with
  | case1 first written => rw [listFrom, pendingListing, List.append_nil]
  | case2 first written outer inductionHypothesis =>
      rw [listFrom, inductionHypothesis, pendingListing, rowListing, List.reverse_cons,
        List.append_assoc]
  | case3 first written characters rest outer inductionHypothesis =>
      rw [listFrom, inductionHypothesis, pendingListing, pendingListing, rowListing,
        List.reverse_append, List.reverse_reverse, reverse_separated]
      simp only [List.append_assoc]
  | case4 first written body rest outer inductionHypothesis =>
      rw [listFrom, inductionHypothesis, pendingListing, pendingListing, pendingListing,
        rowListing, List.reverse_cons, reverse_separated]
      simp only [List.append_assoc, List.cons_append, List.nil_append]

theorem listing_eq (tree : Tree) : tree.listing = '[' :: rowListing true tree := by
  rw [listing, listFrom_eq, pendingListing, pendingListing, List.append_nil]
  rfl

/-! ## What the next character says -/

variable {first : Bool} {front back text : List Char} {rest body : Tree}

/-- The end of a row is not the beginning of a node, whatever the node begins with. -/
theorem end_ne_node {character : Char} (apart : character ≠ ']') :
    ']' :: front ≠ lead first ++ character :: back := by
  intro same
  cases first with
  | true => exact apart (List.cons.inj same).1.symm
  | false => exact absurd (List.cons.inj same).1 (by decide)

theorem end_ne_leaf :
    rowListing first nil ++ front ≠ rowListing first (leaf text rest) ++ back := by
  rcases Text.quoted_eq_cons text with ⟨mark, tail, written, isMark⟩
  rw [rowListing, rowListing, written, List.append_assoc]
  apply end_ne_node
  rcases isMark with same | same <;> rw [same] <;> decide

theorem end_ne_loop :
    rowListing first nil ++ front ≠ rowListing first (loop body rest) ++ back := by
  rw [rowListing, rowListing, List.append_assoc]
  apply end_ne_node
  decide

theorem leaf_ne_loop {other : Tree} :
    rowListing first (leaf text rest) ++ front ≠ rowListing first (loop body other) ++ back := by
  intro same
  rcases Text.quoted_eq_cons text with ⟨mark, tail, written, isMark⟩
  rw [rowListing, rowListing, written, List.append_assoc, List.append_assoc,
    List.append_assoc] at same
  have marks : mark = '[' := (List.cons.inj (List.append_cancel_left same)).1
  rw [marks] at isMark
  rcases isMark with impossible | impossible <;> exact absurd impossible (by decide)

/-! ## Unique reading -/

/-- A row that has been listed says which row it is and where it ends. -/
theorem rowListing_cancel {row other : Tree}
    (same : rowListing first row ++ front = rowListing first other ++ back) :
    row = other ∧ front = back := by
  induction row generalizing first other front back with
  | nil =>
      cases other with
      | nil => exact ⟨rfl, (List.cons.inj same).2⟩
      | leaf text rest => exact absurd same end_ne_leaf
      | loop body rest => exact absurd same end_ne_loop
  | leaf text rest inductionHypothesis =>
      cases other with
      | nil => exact absurd same.symm end_ne_leaf
      | leaf otherText otherRest =>
          simp only [rowListing, List.append_assoc] at same
          rcases Text.quoted_append_cancel (List.append_cancel_left same) with ⟨texts, onward⟩
          rcases inductionHypothesis onward with ⟨rests, followed⟩
          exact ⟨by rw [texts, rests], followed⟩
      | loop body otherRest => exact absurd same leaf_ne_loop
  | loop body rest bodyHypothesis restHypothesis =>
      cases other with
      | nil => exact absurd same.symm end_ne_loop
      | leaf text otherRest => exact absurd same.symm leaf_ne_loop
      | loop otherBody otherRest =>
          simp only [rowListing, List.append_assoc, List.cons_append] at same
          have opened := (List.cons.inj (List.append_cancel_left same)).2
          rcases bodyHypothesis opened with ⟨bodies, onward⟩
          rcases restHypothesis onward with ⟨rests, followed⟩
          exact ⟨by rw [bodies, rests], followed⟩

/-- Trees are listed alike only when they are the same, whatever their leaves hold. -/
theorem listing_eq_listing_iff (first second : Tree) :
    first.listing = second.listing ↔ first = second := by
  constructor
  · intro same
    rw [listing_eq, listing_eq] at same
    have rows := (List.cons.inj same).2
    rw [← List.append_nil (rowListing true first),
      ← List.append_nil (rowListing true second)] at rows
    exact (rowListing_cancel rows).1
  · intro same
    rw [same]

end Tree
end LoopTape
