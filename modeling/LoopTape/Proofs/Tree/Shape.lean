import LoopTape.Proofs.Bracket.Nesting
import LoopTape.Tree.Canonical
import LoopTape.Tree.Emission

namespace LoopTape
namespace Tree

/-!
# Which texts are written trees

The text of a row that stands inside a loop is nested, and the text of a
canonical tree is terminated.  Both follow the structure of the tree.

The other direction is a theorem about texts.  Every text either is the text of
a canonical tree, or it is such a text followed by an opening bracket that is
never closed.  The tree in the second case is what can be read of the text
before reading fails, so the bracket behind it is the leftmost one without a
partner.  A text cannot be of both kinds, but this is a consequence of how texts
are read and is not needed here.
-/

open LoopTape.Bracket

/-! ## The brackets of a written tree -/

theorem Enclosed.nested {row : Tree} (enclosed : row.Enclosed) : Nested row.text := by
  induction row with
  | nil => exact Nested.nil
  | leaf characters rest inductionHypothesis =>
      rcases enclosed with ⟨⟨character, single, notStart, notStop⟩, later⟩
      rcases opening_cases character with ⟨same, _, _⟩ | ⟨same, _, _⟩ | ⟨_, _, weight⟩
      · exact absurd same notStart
      · exact absurd same notStop
      · rw [text, single, List.singleton_append]
        exact (inductionHypothesis later).cons weight
  | loop body rest bodyHypothesis restHypothesis =>
      exact (bodyHypothesis enclosed.1).loop (restHypothesis enclosed.2)

theorem Canonical.terminated {tree : Tree} (canonical : tree.Canonical) :
    Terminated tree.text := by
  induction tree with
  | nil => exact Terminated.nil
  | leaf characters rest inductionHypothesis =>
      rcases canonical with ⟨⟨character, single, notStart⟩, later⟩
      rw [text, single, List.singleton_append]
      exact (inductionHypothesis later).cons (opening_nonpos notStart)
  | loop body rest _ inductionHypothesis =>
      exact Terminated.loop canonical.1.nested (inductionHypothesis canonical.2)

/-- A canonical tree whose text never falls below zero has no closing bracket
as a leaf, so it may stand inside a loop. -/
theorem Canonical.enclosed {tree : Tree} (canonical : tree.Canonical)
    (nonneg : forall position, 0 ≤ heightAt tree.text position) : tree.Enclosed := by
  induction tree with
  | nil => trivial
  | leaf characters rest inductionHypothesis =>
      rcases canonical with ⟨⟨character, single, notStart⟩, later⟩
      rw [text, single, List.singleton_append] at nonneg
      have first := nonneg 1
      rw [heightAt_cons_succ, heightAt_zero] at first
      rcases opening_cases character with ⟨same, _, _⟩ | ⟨_, _, weight⟩ | ⟨_, notStop, weight⟩
      · exact absurd same notStart
      · omega
      · refine ⟨⟨character, single, notStart, notStop⟩, inductionHypothesis later ?_⟩
        intro position
        have above := nonneg (position + 1)
        rw [heightAt_cons_succ, weight] at above
        omega
  | loop body rest _ inductionHypothesis =>
      refine ⟨canonical.1, inductionHypothesis canonical.2 ?_⟩
      intro position
      rw [← canonical.1.nested.heightAt_past_loop]
      exact nonneg _

/-! ## The trees of a text -/

/-- A text is written from a canonical tree, or breaks off in a loop behind one. -/
inductive Shape (source : List Char) : Prop where
  | written (tree : Tree) (canonical : tree.Canonical) (same : source = tree.text)
  | brokenOff (tree : Tree) (rest : List Char) (canonical : tree.Canonical)
      (same : source = tree.text ++ '[' :: rest)
      (unclosed : forall position, 0 ≤ heightAt rest position)

/-- A nested text does not break off, and its tree may stand inside a loop. -/
theorem Shape.exists_enclosed {source : List Char} (shape : Shape source)
    (nested : Nested source) : Exists fun body : Tree => body.Enclosed ∧ source = body.text := by
  cases shape with
  | written tree canonical same =>
      exact ⟨tree, canonical.enclosed (same ▸ nested.nonneg), same⟩
  | brokenOff tree rest _ same unclosed =>
      have total := nested.level
      rw [same, balance_append, balance_cons, show opening '[' = 1 from rfl] at total
      have front := nested.nonneg tree.text.length
      rw [same, heightAt_append_left (Nat.le_refl _), heightAt_length] at front
      have back := unclosed rest.length
      rw [heightAt_length] at back
      omega

theorem Shape.cons {character : Char} {rest : List Char} (notStart : character ≠ '[')
    (shape : Shape rest) : Shape (character :: rest) := by
  cases shape with
  | written tree canonical same =>
      refine .written (.leaf [character] tree) ⟨⟨character, rfl, notStart⟩, canonical⟩ ?_
      rw [text, same, List.singleton_append]
  | brokenOff tree behind canonical same unclosed =>
      refine .brokenOff (.leaf [character] tree) behind
        ⟨⟨character, rfl, notStart⟩, canonical⟩ ?_ unclosed
      rw [text, same, List.singleton_append, List.cons_append]

theorem Shape.loop {body : Tree} (enclosed : body.Enclosed) {rest : List Char}
    (shape : Shape rest) : Shape ('[' :: (body.text ++ ']' :: rest)) := by
  cases shape with
  | written tree canonical same =>
      refine .written (.loop body tree) ⟨enclosed, canonical⟩ ?_
      rw [text, same]
  | brokenOff tree behind canonical same unclosed =>
      refine .brokenOff (.loop body tree) behind ⟨enclosed, canonical⟩ ?_ unclosed
      rw [text, same, List.cons_append, List.append_assoc, List.cons_append]

/-- Every text has one of the two shapes. -/
theorem shape (source : List Char) : Shape source := by
  induction known : source.length using Nat.strongRecOn generalizing source with
  | ind length inductionHypothesis =>
      cases source with
      | nil => exact .written .nil trivial rfl
      | cons character rest =>
          rw [List.length_cons] at known
          by_cases isStart : character = '['
          · rw [isStart]
            cases closed : (collect rest).closed with
            | false =>
                exact .brokenOff .nil rest trivial rfl
                  ((collect_closed_eq_false_iff rest).mp closed)
            | true =>
                rcases nested_of_collect_closed closed with ⟨nested, after, split⟩
                have lengths := congrArg List.length split
                rw [List.length_append, List.length_cons] at lengths
                have inner := inductionHypothesis (collect rest).inner.length (by omega)
                  (collect rest).inner rfl
                have behind := inductionHypothesis after.length (by omega) after rfl
                rcases inner.exists_enclosed nested with ⟨body, enclosed, same⟩
                rw [split, same]
                exact behind.loop enclosed
          · exact (inductionHypothesis rest.length (by omega) rest rfl).cons isStart

end Tree
end LoopTape
