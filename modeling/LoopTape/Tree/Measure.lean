import LoopTape.Tree.Basic

namespace LoopTape
namespace Tree

/-!
# Measures of trees

Three numbers describe the size of a tree: how many leaves it has at all
levels, how many loops, and how deep its loops are nested.  The root is not a
loop, and a row without loops has depth zero.

Each number is defined twice.  The recursive definitions follow the structure
of the tree.  The definitions by a list of pending rows take one row at a time
and put the bodies of its loops in front of the rows that wait.  Rows are then
met in an order that has nothing to do with their place in the text, and only
the totals agree.
-/

/-! ## By structural recursion -/

def leafCount : Tree -> Nat
  | nil => 0
  | leaf _ rest => rest.leafCount + 1
  | loop body rest => body.leafCount + rest.leafCount

def loopCount : Tree -> Nat
  | nil => 0
  | leaf _ rest => rest.loopCount
  | loop body rest => body.loopCount + rest.loopCount + 1

def height : Tree -> Nat
  | nil => 0
  | leaf _ rest => rest.height
  | loop body rest => max (body.height + 1) rest.height

/-! ## By pending rows -/

/-- The bodies of the loops of a row, last first, in front of other rows. -/
def bodiesOnto : Tree -> List Tree -> List Tree
  | nil, pending => pending
  | leaf _ rest, pending => rest.bodiesOnto pending
  | loop body rest, pending => rest.bodiesOnto (body :: pending)

/-- The number of leaves in the row itself. -/
def rowLeaves : Tree -> Nat
  | nil => 0
  | leaf _ rest => rest.rowLeaves + 1
  | loop _ rest => rest.rowLeaves

/-- The number of loops in the row itself. -/
def rowLoops : Tree -> Nat
  | nil => 0
  | leaf _ rest => rest.rowLoops
  | loop _ rest => rest.rowLoops + 1

/-- Taking a row and putting its bodies in its place leaves less to go through. -/
theorem pendingExtent_bodiesOnto_lt (row : Tree) (pending : List Tree) :
    pendingExtent (row.bodiesOnto pending) < row.extent + pendingExtent pending := by
  induction row generalizing pending with
  | nil => simp only [bodiesOnto, extent]; omega
  | leaf _ rest inductionHypothesis =>
    have later := inductionHypothesis pending
    simp only [bodiesOnto, extent]
    omega
  | loop body rest _ inductionHypothesis =>
    have later := inductionHypothesis (body :: pending)
    simp only [bodiesOnto, extent, pendingExtent] at later ⊢
    omega

/-- How many leaves and how many loops there are. -/
structure Census where
  leaves : Nat
  loops : Nat
  deriving DecidableEq

/-- Count the pending rows on top of what has been counted. -/
def censusFrom (counted : Census) : List Tree -> Census
  | [] => counted
  | row :: pending =>
    censusFrom ⟨counted.leaves + row.rowLeaves, counted.loops + row.rowLoops⟩
      (row.bodiesOnto pending)
termination_by rows => pendingExtent rows
decreasing_by
  have less := pendingExtent_bodiesOnto_lt row pending
  simp only [pendingExtent] at less ⊢
  omega

/-- Count the leaves and the loops at all levels. -/
def census (tree : Tree) : Census := censusFrom ⟨0, 0⟩ [tree]

/-- The bodies of the loops of a row, last first, each with its level. -/
def leveledOnto (level : Nat) : Tree -> List (Tree × Nat) -> List (Tree × Nat)
  | nil, pending => pending
  | leaf _ rest, pending => rest.leveledOnto level pending
  | loop body rest, pending => rest.leveledOnto level ((body, level) :: pending)

/-- Levels do not change which rows are pending. -/
theorem map_fst_leveledOnto (level : Nat) (row : Tree) (pending : List (Tree × Nat)) :
    (row.leveledOnto level pending).map Prod.fst = row.bodiesOnto (pending.map Prod.fst) := by
  induction row generalizing pending with
  | nil => rfl
  | leaf _ rest inductionHypothesis => exact inductionHypothesis pending
  | loop body rest _ inductionHypothesis => exact inductionHypothesis ((body, level) :: pending)

/-- The deepest level among the pending rows and those met before. -/
def depthFrom (deepest : Nat) : List (Tree × Nat) -> Nat
  | [] => deepest
  | (row, level) :: pending =>
    depthFrom (max deepest level) (row.leveledOnto (level + 1) pending)
termination_by rows => pendingExtent (rows.map Prod.fst)
decreasing_by
  rw [map_fst_leveledOnto]
  have less := pendingExtent_bodiesOnto_lt row (pending.map Prod.fst)
  simp only [pendingExtent, List.map_cons] at less ⊢
  omega

/-- How deep the loops of a tree are nested. -/
def depth (tree : Tree) : Nat := depthFrom 0 [(tree, 0)]

end Tree
end LoopTape
