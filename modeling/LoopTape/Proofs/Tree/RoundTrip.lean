import LoopTape.Proofs.Tree.Reading
import LoopTape.Proofs.Tree.Writing

namespace LoopTape
namespace Tree

/-!
# Reading and writing undo one another

What can be read is a canonical tree, and writing it gives the text back.  Any
tree at all can be written, but only a canonical one is read again as itself:
a leaf that is longer than a character falls apart, an empty one vanishes, and a
bracket as a leaf is taken for the beginning or the end of a loop.
-/

/-- Reading and writing are inverse to one another between the texts that can
be read and the canonical trees. -/
theorem read_emit_inverse :
    (forall (source : List Char) (tree : Tree), read source = .ok tree ->
      tree.Canonical ∧ tree.emit = source) ∧
    forall tree : Tree, read tree.emit = .ok tree ↔ tree.Canonical := by
  constructor
  · intro source tree reads
    rcases (read_eq_ok_iff source tree).mp reads with ⟨canonical, same⟩
    refine ⟨canonical, ?_⟩
    rw [emit_eq_text, same]
  · intro tree
    rw [emit_eq_text, read_eq_ok_iff]
    constructor
    · rintro ⟨canonical, _⟩
      exact canonical
    · intro canonical
      exact ⟨canonical, rfl⟩

theorem read_emit_of_nested_loop :
    read [']', '[', '+', '[', ']', ']'] =
        .ok (leaf [']'] (loop (leaf ['+'] (loop nil nil)) nil)) ∧
      (leaf [']'] (loop (leaf ['+'] (loop nil nil)) nil)).Canonical ∧
      (leaf [']'] (loop (leaf ['+'] (loop nil nil)) nil)).emit =
        [']', '[', '+', '[', ']', ']'] := by
  have canonical : (leaf [']'] (loop (leaf ['+'] (loop nil nil)) nil)).Canonical :=
    ⟨⟨']', rfl, by decide⟩, ⟨⟨'+', rfl, by decide, by decide⟩, trivial, trivial⟩, trivial⟩
  have reads : read [']', '[', '+', '[', ']', ']'] =
      .ok (leaf [']'] (loop (leaf ['+'] (loop nil nil)) nil)) := read_text canonical
  exact ⟨reads, read_emit_inverse.1 _ _ reads⟩

end Tree
end LoopTape
