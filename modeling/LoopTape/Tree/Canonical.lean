import LoopTape.Tree.Basic

namespace LoopTape
namespace Tree

/-!
# Canonical trees

A tree built by hand can have leaves of any text, and written as a program it
may read as something else.  The canonical trees are those whose leaves say
what they are: each is one character and not an opening bracket.  A closing
bracket may stand as a leaf in the row at the root, where no loop is open that
it could end, but not inside a loop.
-/

/-- Whether every leaf of a row inside a loop is one character other than a
bracket, at every level. -/
def Enclosed : Tree -> Prop
  | nil => True
  | leaf text rest =>
    (Exists fun character => text = [character] ∧ character ≠ '[' ∧ character ≠ ']') ∧
      rest.Enclosed
  | loop body rest => body.Enclosed ∧ rest.Enclosed

/-- Whether the leaves of a tree say what they are. -/
def Canonical : Tree -> Prop
  | nil => True
  | leaf text rest => (Exists fun character => text = [character] ∧ character ≠ '[') ∧ rest.Canonical
  | loop body rest => body.Enclosed ∧ rest.Canonical

/-- What may stand inside a loop may stand at the root as well. -/
theorem Enclosed.canonical {row : Tree} (enclosed : row.Enclosed) : row.Canonical := by
  induction row with
  | nil => exact enclosed
  | leaf text rest inductionHypothesis =>
    obtain ⟨⟨character, single, notOpening, _⟩, later⟩ := enclosed
    exact ⟨⟨character, single, notOpening⟩, inductionHypothesis later⟩
  | loop body rest _ inductionHypothesis => exact ⟨enclosed.1, inductionHypothesis enclosed.2⟩

end Tree
end LoopTape
