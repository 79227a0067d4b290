import LoopTape.Tree.Measure

namespace LoopTape
namespace Tree

/-!
# Measures by pending rows

The measures of a tree are taken by going through rows that are pending, and they are
also given by structural recursion.  The rows come in an order of their own, so nothing
can be said about one of them.  What stays the same is the sum over the pending rows,
together with what has been counted before: a row that is taken leaves its own nodes in
the count and the bodies of its loops among the pending rows.

Levels do not add up but have a maximum, and the same is true of it.
-/

/-! ## Leaves and loops -/

/-- What is still to be counted when the given rows are pending. -/
def pendingCensus : List Tree -> Census
  | [] => ⟨0, 0⟩
  | row :: outer =>
    ⟨row.leafCount + (pendingCensus outer).leaves, row.loopCount + (pendingCensus outer).loops⟩

theorem pendingCensus_bodiesOnto (row : Tree) (pending : List Tree) :
    row.rowLeaves + (pendingCensus (row.bodiesOnto pending)).leaves =
        row.leafCount + (pendingCensus pending).leaves ∧
      row.rowLoops + (pendingCensus (row.bodiesOnto pending)).loops =
        row.loopCount + (pendingCensus pending).loops := by
  induction row generalizing pending with
  | nil => exact ⟨rfl, rfl⟩
  | leaf characters rest inductionHypothesis =>
      have later := inductionHypothesis pending
      simp only [rowLeaves, rowLoops, bodiesOnto, leafCount, loopCount]
      omega
  | loop body rest _ inductionHypothesis =>
      have later := inductionHypothesis (body :: pending)
      simp only [rowLeaves, rowLoops, bodiesOnto, leafCount, loopCount, pendingCensus] at later ⊢
      omega

theorem censusFrom_eq (counted : Census) (rows : List Tree) :
    censusFrom counted rows =
      ⟨counted.leaves + (pendingCensus rows).leaves, counted.loops + (pendingCensus rows).loops⟩ := by
  induction counted, rows using censusFrom.induct with
  | case1 counted => rw [censusFrom, pendingCensus, Nat.add_zero, Nat.add_zero]
  | case2 counted row pending inductionHypothesis =>
      have taken := pendingCensus_bodiesOnto row pending
      rw [censusFrom, inductionHypothesis, pendingCensus]
      simp only [Census.mk.injEq]
      omega

/-- Row by row and by structural recursion the same nodes are counted. -/
theorem census_eq (tree : Tree) : tree.census = ⟨tree.leafCount, tree.loopCount⟩ := by
  rw [census, censusFrom_eq]
  simp only [pendingCensus, Nat.zero_add, Nat.add_zero]

/-! ## Levels -/

/-- The deepest level that is still to be met when the given rows are pending. -/
def pendingDepth : List (Tree × Nat) -> Nat
  | [] => 0
  | (row, level) :: outer => max (level + row.height) (pendingDepth outer)

theorem pendingDepth_leveledOnto (level : Nat) (row : Tree) (pending : List (Tree × Nat)) :
    max level (pendingDepth (row.leveledOnto (level + 1) pending)) =
      max (level + row.height) (pendingDepth pending) := by
  induction row generalizing pending with
  | nil => rfl
  | leaf characters rest inductionHypothesis => exact inductionHypothesis pending
  | loop body rest _ inductionHypothesis =>
      rw [leveledOnto, inductionHypothesis, pendingDepth, height]
      omega

theorem depthFrom_eq (deepest : Nat) (rows : List (Tree × Nat)) :
    depthFrom deepest rows = max deepest (pendingDepth rows) := by
  induction deepest, rows using depthFrom.induct with
  | case1 deepest => rw [depthFrom, pendingDepth, Nat.max_zero]
  | case2 deepest row level pending inductionHypothesis =>
      rw [depthFrom, inductionHypothesis, Nat.max_assoc, pendingDepth_leveledOnto, pendingDepth]

/-- Row by row and by structural recursion the same depth is found. -/
theorem depth_eq_height (tree : Tree) : tree.depth = tree.height := by
  rw [depth, depthFrom_eq, pendingDepth, pendingDepth, Nat.zero_max, Nat.max_zero, Nat.zero_add]

end Tree
end LoopTape
