import LoopTape.Proofs.Tree.Measures
import LoopTape.Proofs.Tree.Reading

namespace LoopTape
namespace Tree

/-!
# Trees of joined texts

Reading takes texts that are joined to rows that are joined.  The first text has to be
one that can be read by itself: a loop that it leaves open would go on into the second.
The second may be any text.  If it cannot be read, the bracket that is blamed is the same
one, further behind by the length of the first.

Nothing has to be known about the seam.  A text that can be read is the text of a
canonical tree, a text that cannot be read breaks off behind one, and rows of canonical
trees may be joined.  A stray closing bracket is a leaf at the root on both sides of the
seam, so it ends no loop.  Only inside a loop it would, and this is why a text can be
made the body of a loop exactly when it has none.
-/

open LoopTape.Bracket

/-- The texts of all leaves, at every level, from the first to the last. -/
def leafTexts : Tree -> List (List Char)
  | nil => []
  | leaf characters rest => characters :: rest.leafTexts
  | loop body rest => body.leafTexts ++ rest.leafTexts

/-! ## Rows in a row -/

theorem leafCount_append (first second : Tree) :
    (first ++ second).leafCount = first.leafCount + second.leafCount := by
  induction first with
  | nil => exact (Nat.zero_add _).symm
  | leaf characters rest inductionHypothesis =>
      rw [leaf_append, leafCount, leafCount, inductionHypothesis, Nat.add_right_comm]
  | loop body rest _ inductionHypothesis =>
      rw [loop_append, leafCount, leafCount, inductionHypothesis, Nat.add_assoc]

theorem loopCount_append (first second : Tree) :
    (first ++ second).loopCount = first.loopCount + second.loopCount := by
  induction first with
  | nil => exact (Nat.zero_add _).symm
  | leaf characters rest inductionHypothesis => exact inductionHypothesis
  | loop body rest _ inductionHypothesis =>
      rw [loop_append, loopCount, loopCount, inductionHypothesis, ← Nat.add_assoc,
        Nat.add_right_comm]

theorem height_append (first second : Tree) :
    (first ++ second).height = max first.height second.height := by
  induction first with
  | nil => exact (Nat.zero_max _).symm
  | leaf characters rest inductionHypothesis => exact inductionHypothesis
  | loop body rest _ inductionHypothesis =>
      rw [loop_append, height, height, inductionHypothesis, Nat.max_assoc]

theorem census_append (first second : Tree) :
    (first ++ second).census =
      ⟨first.census.leaves + second.census.leaves, first.census.loops + second.census.loops⟩ := by
  simp only [census_eq, leafCount_append, loopCount_append]

theorem depth_append (first second : Tree) :
    (first ++ second).depth = max first.depth second.depth := by
  simp only [depth_eq_height, height_append]

theorem Canonical.append {first second : Tree} (canonical : first.Canonical)
    (later : second.Canonical) : (first ++ second).Canonical := by
  induction first with
  | nil => exact later
  | leaf characters rest inductionHypothesis =>
      exact ⟨canonical.1, inductionHypothesis canonical.2⟩
  | loop body rest _ inductionHypothesis =>
      exact ⟨canonical.1, inductionHypothesis canonical.2⟩

/-! ## Leaves that end no loop -/

theorem Enclosed.stop_not_mem_leafTexts {row : Tree} (enclosed : row.Enclosed) :
    [']'] ∉ row.leafTexts := by
  induction row with
  | nil => exact List.not_mem_nil
  | leaf characters rest inductionHypothesis =>
      rcases enclosed with ⟨⟨character, single, _, notStop⟩, later⟩
      intro member
      rcases List.mem_cons.mp member with here | behind
      · rw [single] at here
        exact notStop (List.singleton_inj.mp here).symm
      · exact inductionHypothesis later behind
  | loop body rest bodyHypothesis restHypothesis =>
      intro member
      rcases List.mem_append.mp member with inside | behind
      · exact bodyHypothesis enclosed.1 inside
      · exact restHypothesis enclosed.2 behind

/-- A tree that has been read may stand inside a loop when none of its leaves is a
closing bracket. -/
theorem Canonical.enclosed_iff {tree : Tree} (canonical : tree.Canonical) :
    tree.Enclosed ↔ [']'] ∉ tree.leafTexts := by
  constructor
  · exact Enclosed.stop_not_mem_leafTexts
  · intro free
    induction tree with
    | nil => trivial
    | leaf characters rest inductionHypothesis =>
        rcases canonical with ⟨⟨character, single, notStart⟩, later⟩
        rw [leafTexts, List.mem_cons, not_or] at free
        refine ⟨⟨character, single, notStart, ?_⟩, inductionHypothesis later free.2⟩
        intro stop
        rw [single, stop] at free
        exact free.1 rfl
    | loop body rest _ inductionHypothesis =>
        rw [leafTexts, List.mem_append, not_or] at free
        exact ⟨canonical.1, inductionHypothesis canonical.2 free.2⟩

theorem loop_canonical_iff (body : Tree) : (loop body nil).Canonical ↔ body.Enclosed :=
  and_iff_left trivial

/-! ## Texts in a row -/

variable {front back : List Char} {tree row : Tree}

theorem read_append (reads : read front = .ok tree) (later : read back = .ok row) :
    read (front ++ back) = .ok (tree ++ row) := by
  rcases (read_eq_ok_iff front tree).mp reads with ⟨canonical, written⟩
  rcases (read_eq_ok_iff back row).mp later with ⟨rowCanonical, rowWritten⟩
  rw [written, rowWritten, ← text_append]
  exact read_text (canonical.append rowCanonical)

/-- Behind a text that can be read the same bracket is blamed. -/
theorem read_append_error (reads : read front = .ok tree) {position : Nat}
    (refused : read back = .error ⟨position⟩) :
    read (front ++ back) = .error ⟨front.length + position⟩ := by
  rcases (read_eq_ok_iff front tree).mp reads with ⟨canonical, written⟩
  cases shape back with
  | written other otherCanonical same =>
      rw [same, read_text otherCanonical] at refused
      cases refused
  | brokenOff other rest otherCanonical same unclosed =>
      have blamed := read_brokenOff (canonical.append otherCanonical) unclosed
      rw [same, read_brokenOff otherCanonical unclosed] at refused
      cases refused
      rw [text_append, List.append_assoc, ← written, ← same, List.length_append] at blamed
      exact blamed

/-- Reading joins the rows of texts that are joined, and the measures follow: the
numbers of nodes add up, and the depth is that of the deeper one.  A text that cannot be
read is refused behind a text that can be read too, at the same bracket.  And between
brackets a text that can be read is the body of one loop exactly when none of its
leaves is a closing bracket. -/
theorem reading_joins_rows {front : List Char} {tree : Tree} (reads : read front = .ok tree) :
    (forall back row, read back = .ok row ->
      read (front ++ back) = .ok (tree ++ row) ∧
        (tree ++ row).census =
          ⟨tree.census.leaves + row.census.leaves, tree.census.loops + row.census.loops⟩ ∧
        (tree ++ row).depth = max tree.depth row.depth) ∧
    (forall back position, read back = .error ⟨position⟩ ->
      read (front ++ back) = .error ⟨front.length + position⟩) ∧
    (read ('[' :: (front ++ [']'])) = .ok (loop tree nil) ↔ [']'] ∉ tree.leafTexts) := by
  rcases (read_eq_ok_iff front tree).mp reads with ⟨canonical, written⟩
  refine ⟨?_, fun back position refused => read_append_error reads refused, ?_⟩
  · intro back row later
    exact ⟨read_append reads later, census_append tree row, depth_append tree row⟩
  · rw [read_eq_ok_iff, loop_canonical_iff, canonical.enclosed_iff, written]
    exact and_iff_left rfl

/-- The second text begins with a closing bracket, which ends no loop of the first, and
the loop that the third leaves open is blamed behind the first too. -/
theorem rows_around_seam :
    read ['+', '[', ']'] = .ok (leaf ['+'] (loop nil nil)) ∧
      read (['+', '[', ']'] ++ [']', '[', '[', ']', ']']) =
        .ok (leaf ['+'] (loop nil (leaf [']'] (loop (loop nil nil) nil)))) ∧
      (leaf ['+'] (loop nil (leaf [']'] (loop (loop nil nil) nil)))).depth = max 1 2 ∧
      read (['+', '[', ']'] ++ [']', '[']) = .error ⟨3 + 1⟩ ∧
      read ['[', '+', '[', ']', ']'] = .ok (loop (leaf ['+'] (loop nil nil)) nil) := by
  have front : read ['+', '[', ']'] = .ok (leaf ['+'] (loop nil nil)) := by cbv
  have back : read [']', '[', '[', ']', ']'] = .ok (leaf [']'] (loop (loop nil nil) nil)) := by cbv
  have unclosed : read [']', '['] = .error ⟨1⟩ := by cbv
  have flat : (leaf ['+'] (loop nil nil)).depth = 1 := depth_eq_height _
  have deep : (leaf [']'] (loop (loop nil nil) nil)).depth = 2 := depth_eq_height _
  rcases reading_joins_rows front with ⟨joined, refused, enclosed⟩
  rcases joined _ _ back with ⟨both, _, deeper⟩
  rw [flat, deep] at deeper
  exact ⟨front, both, deeper, refused _ _ unclosed, enclosed.mpr (by decide)⟩

end Tree
end LoopTape
