import LoopTape.Proofs.Bracket.Stripping
import LoopTape.Proofs.Tree.Measures
import LoopTape.Proofs.Tree.Reading

namespace LoopTape
namespace Tree

/-!
# Trees without the comments

Removing the comments of a text before it is read comes to the same as reading it and
removing the leaves that are comments.  Loops stay, also those whose bodies become
empty, so the loops are as many and as deep as before.

A text that cannot be read cannot be read without its comments either, and the bracket
that is blamed is the same one.  It has moved to the front by the comments that stood
there, which is to say that it stands at the number of instructions in front of it.
-/

open LoopTape.Bracket

/-- The tree without the leaves that are comments, at every level. -/
def codeOnly : Tree -> Tree
  | nil => nil
  | leaf characters rest =>
    match Instruction.ofText? characters with
    | some _ => leaf characters rest.codeOnly
    | none => rest.codeOnly
  | loop body rest => loop body.codeOnly rest.codeOnly

/-! ## Leaves removed -/

/-- Of the leaves that reading makes, those that are instructions stay. -/
theorem codeOnly_leaf (character : Char) (rest : Tree) :
    (leaf [character] rest).codeOnly =
      if Instruction.isCode character then leaf [character] rest.codeOnly else rest.codeOnly := by
  rw [codeOnly, Instruction.ofText?, Instruction.isCode]
  cases Instruction.ofChar? character with
  | some instruction => rfl
  | none => rfl

theorem loopCount_codeOnly (tree : Tree) : tree.codeOnly.loopCount = tree.loopCount := by
  induction tree with
  | nil => rfl
  | leaf characters rest inductionHypothesis =>
      rw [codeOnly]
      split
      · exact inductionHypothesis
      · exact inductionHypothesis
  | loop body rest bodyHypothesis restHypothesis =>
      rw [codeOnly, loopCount, bodyHypothesis, restHypothesis, loopCount]

theorem height_codeOnly (tree : Tree) : tree.codeOnly.height = tree.height := by
  induction tree with
  | nil => rfl
  | leaf characters rest inductionHypothesis =>
      rw [codeOnly]
      split
      · exact inductionHypothesis
      · exact inductionHypothesis
  | loop body rest bodyHypothesis restHypothesis =>
      rw [codeOnly, height, bodyHypothesis, restHypothesis, height]

theorem Enclosed.codeOnly {row : Tree} (enclosed : row.Enclosed) : row.codeOnly.Enclosed := by
  induction row with
  | nil => trivial
  | leaf characters rest inductionHypothesis =>
      rcases enclosed with ⟨⟨character, single, notBracket⟩, later⟩
      rw [single, codeOnly_leaf]
      split
      · exact ⟨⟨character, rfl, notBracket⟩, inductionHypothesis later⟩
      · exact inductionHypothesis later
  | loop body rest bodyHypothesis restHypothesis =>
      exact ⟨bodyHypothesis enclosed.1, restHypothesis enclosed.2⟩

theorem Canonical.codeOnly {tree : Tree} (canonical : tree.Canonical) :
    tree.codeOnly.Canonical := by
  induction tree with
  | nil => trivial
  | leaf characters rest inductionHypothesis =>
      rcases canonical with ⟨⟨character, single, notStart⟩, later⟩
      rw [single, codeOnly_leaf]
      split
      · exact ⟨⟨character, rfl, notStart⟩, inductionHypothesis later⟩
      · exact inductionHypothesis later
  | loop body rest _ restHypothesis =>
      exact ⟨canonical.1.codeOnly, restHypothesis canonical.2⟩

/-! ## Texts of what is left -/

theorem codeOnly_loop (body rest : List Char) :
    Instruction.codeOnly ('[' :: (body ++ ']' :: rest)) =
      '[' :: (Instruction.codeOnly body ++ ']' :: Instruction.codeOnly rest) := by
  rw [Instruction.codeOnly_cons_of_code rfl, Instruction.codeOnly_append,
    Instruction.codeOnly_cons_of_code rfl]

theorem Canonical.text_codeOnly {tree : Tree} (canonical : tree.Canonical) :
    tree.codeOnly.text = Instruction.codeOnly tree.text := by
  induction tree with
  | nil => rfl
  | leaf characters rest inductionHypothesis =>
      rcases canonical with ⟨⟨character, single, _⟩, later⟩
      rw [single, text, List.singleton_append, codeOnly_leaf]
      cases code : Instruction.isCode character with
      | true =>
          rw [if_pos rfl, Instruction.codeOnly_cons_of_code code, text, inductionHypothesis later,
            List.singleton_append]
      | false =>
          rw [if_neg Bool.false_ne_true, Instruction.codeOnly_cons_of_comment code,
            inductionHypothesis later]
  | loop body rest bodyHypothesis restHypothesis =>
      rw [Tree.codeOnly, text, text, codeOnly_loop, bodyHypothesis canonical.1.canonical,
        restHypothesis canonical.2]

/-- A text that never falls below its first height does not do so without its comments. -/
theorem heightAt_codeOnly_nonneg {source : List Char}
    (nonneg : forall position, 0 ≤ heightAt source position) (place : Nat) :
    0 ≤ heightAt (Instruction.codeOnly source) place := by
  have total := codeBefore_of_length_le (Nat.le_refl source.length)
  by_cases inside : place ≤ codeBefore source source.length
  · rcases exists_codeBefore_eq inside with ⟨position, _, same⟩
    rw [← same, heightAt_codeOnly]
    exact nonneg position
  · rw [heightAt_of_length_le (by omega), balance_codeOnly, ← heightAt_length]
    exact nonneg source.length

/-- A text is read without its comments as the tree without the comments, or it is refused
at the same bracket. -/
theorem read_codeOnly (source : List Char) :
    read (Instruction.codeOnly source) =
      match read source with
      | .ok tree => .ok tree.codeOnly
      | .error bracket => .error ⟨codeBefore source bracket.position⟩ := by
  cases shape source with
  | written tree canonical same =>
      rw [same, read_text canonical, ← canonical.text_codeOnly, read_text canonical.codeOnly]
  | brokenOff tree rest canonical same unclosed =>
      have front : codeBefore source tree.text.length = tree.codeOnly.text.length := by
        rw [canonical.text_codeOnly, ← length_codeOnly_take, same, List.take_left]
      rw [same, read_brokenOff canonical unclosed, ← same]
      dsimp only
      rw [front, same, Instruction.codeOnly_append, Instruction.codeOnly_cons_of_code rfl,
        ← canonical.text_codeOnly]
      exact read_brokenOff canonical.codeOnly (heightAt_codeOnly_nonneg unclosed)

/-- Comments have no part in the structure of a text.  It can be read without them exactly
when it can be read with them.  Then the tree is the same but for the leaves that are
comments, and it has as many loops, nested as deep.  Otherwise the bracket that is blamed
without them stands at the number of instructions in front of the bracket that is blamed
with them. -/
theorem comments_leave_structure (source : List Char) :
    ((Exists fun tree => read (Instruction.codeOnly source) = .ok tree) ↔
      Exists fun tree => read source = .ok tree) ∧
    (forall tree, read source = .ok tree ->
      read (Instruction.codeOnly source) = .ok tree.codeOnly ∧
        tree.codeOnly.census.loops = tree.census.loops ∧ tree.codeOnly.depth = tree.depth) ∧
    forall position, read source = .error ⟨position⟩ ->
      read (Instruction.codeOnly source) = .error ⟨codeBefore source position⟩ := by
  have stripped := read_codeOnly source
  refine ⟨?_, ?_, ?_⟩
  · rw [stripped]
    cases read source with
    | ok tree => exact ⟨fun _ => ⟨tree, rfl⟩, fun _ => ⟨tree.codeOnly, rfl⟩⟩
    | error bracket =>
        constructor
        · rintro ⟨tree, impossible⟩
          cases impossible
        · rintro ⟨tree, impossible⟩
          cases impossible
  · intro tree reads
    rw [reads] at stripped
    rw [census_eq, census_eq, depth_eq_height, depth_eq_height]
    exact ⟨stripped, loopCount_codeOnly tree, height_codeOnly tree⟩
  · intro position fails
    rw [fails] at stripped
    exact stripped

/-- A loop of comments stays as an empty loop, and the bracket behind it is blamed in
front of the place where it stood. -/
theorem structure_behind_comments :
    read ['a', '[', 'b', ']'] = .ok (leaf ['a'] (loop (leaf ['b'] nil) nil)) ∧
      read ['[', ']'] = .ok (loop nil nil) ∧
      (leaf ['a'] (loop (leaf ['b'] nil) nil)).codeOnly.depth =
        (leaf ['a'] (loop (leaf ['b'] nil) nil)).depth ∧
      read ['a', '[', 'b', ']', '[', '+'] = .error ⟨4⟩ ∧
      read ['[', ']', '[', '+'] = .error ⟨2⟩ := by
  have canonical : (leaf ['a'] (loop (leaf ['b'] nil) nil)).Canonical :=
    ⟨⟨'a', rfl, by decide⟩, ⟨⟨'b', rfl, by decide, by decide⟩, trivial⟩, trivial⟩
  have reads : read ['a', '[', 'b', ']'] = .ok (leaf ['a'] (loop (leaf ['b'] nil) nil)) :=
    read_text canonical
  have unclosed : forall position, 0 ≤ heightAt ['+'] position :=
    (collect_closed_eq_false_iff ['+']).mp rfl
  have fails : read ['a', '[', 'b', ']', '[', '+'] = .error ⟨4⟩ := read_brokenOff canonical unclosed
  rcases (comments_leave_structure ['a', '[', 'b', ']']).2.1 _ reads with ⟨stripped, _, depths⟩
  exact ⟨reads, stripped, depths, fails, (comments_leave_structure _).2.2 4 fails⟩

end Tree
end LoopTape
