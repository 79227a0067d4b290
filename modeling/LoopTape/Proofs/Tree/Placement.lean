import LoopTape.Proofs.Bracket.Partners
import LoopTape.Proofs.Tree.Reading

namespace LoopTape
namespace Tree

/-!
# Trees in their texts

A machine knows a position in a text, and a tree knows which loop it is in.  A
row is placed at a position when the text there is the text of the row and the
scans for brackets find what the tree knows: each loop is enclosed by its own
brackets, and a closing bracket that is a leaf has no partner.

For a row inside a loop this does not depend on the surrounding text, since all
brackets of the row belong together.  For a row at the root it depends on what
is in front.  A loop that was left open there would be closed by the first leaf
that is a closing bracket.
-/

open LoopTape.Bracket

/-- Whether the text from a position on reads as the row, for a reader who asks
the scans where the loops begin and end. -/
def Placed (source : List Char) : Tree -> Nat -> Prop
  | nil, _ => True
  | leaf characters rest, position =>
    (Exists fun character => characters = [character] ∧ source[position]? = some character ∧
      character ≠ '[' ∧ (character = ']' -> loopBegin? source position = none)) ∧
      rest.Placed source (position + 1)
  | loop body rest, position =>
    Encloses source position (position + 1 + body.text.length) ∧
      body.Placed source (position + 1) ∧
      rest.Placed source (position + 1 + body.text.length + 1)

/-- The brackets around a nested text belong to each other. -/
theorem encloses_loop {body : List Char} (nested : Nested body) (front back : List Char) :
    Encloses (front ++ '[' :: (body ++ ']' :: back)) front.length
      (front.length + 1 + body.length) := by
  have start : heightAt (front ++ '[' :: (body ++ ']' :: back)) front.length = balance front := by
    rw [heightAt_append_left (Nat.le_refl _), heightAt_length]
  refine ⟨by omega, ?_, ?_, ?_⟩
  · simp only [List.length_append, List.length_cons]
    omega
  · rw [start, show front.length + 1 + body.length + 1 =
        front.length + (body.length + 2 + 0) by omega,
      heightAt_append_right, nested.heightAt_past_loop, heightAt_zero, Int.add_zero]
  · intro middle later within
    rw [start, show middle = front.length + (middle - front.length - 1 + 1) by omega,
      heightAt_append_right, Nested.heightAt_inside_loop body back (by omega)]
    have above := nested.nonneg (middle - front.length - 1)
    omega

/-- Behind a terminated text no loop is open that a closing bracket could end. -/
theorem loopBegin?_behind_terminated {front : List Char} (terminated : Terminated front)
    (back : List Char) : loopBegin? (front ++ ']' :: back) front.length = none := by
  have falls : heightAt (front ++ ']' :: back) (front.length + 1) = balance front - 1 := by
    rw [heightAt_append_right, heightAt_cons_succ, heightAt_zero]
    rfl
  apply (loopBegin?_eq_none_iff (by simp)).mpr
  intro middle earlier
  have level := terminated middle
  rw [balance_drop] at level
  rw [falls, heightAt_append_left earlier]
  omega

/-! ## Rows between two texts -/

variable {front back : List Char}

theorem placed_leaf {character : Char} {rest : Tree} (notStart : character ≠ '[')
    (alone : character = ']' ->
      loopBegin? (front ++ character :: (rest.text ++ back)) front.length = none)
    (behind : rest.Placed (front ++ [character] ++ (rest.text ++ back))
      (front ++ [character]).length) :
    (leaf [character] rest).Placed (front ++ ((leaf [character] rest).text ++ back))
      front.length := by
  have found : (front ++ character :: (rest.text ++ back))[front.length]? = some character := by
    rw [List.getElem?_append_right (Nat.le_refl _), Nat.sub_self, List.getElem?_cons_zero]
  rw [List.append_assoc, List.length_append] at behind
  exact ⟨⟨character, rfl, found, notStart, alone⟩, behind⟩

theorem placed_loop {body rest : Tree} (nested : Nested body.text)
    (inside : body.Placed (front ++ ['['] ++ (body.text ++ ']' :: (rest.text ++ back)))
      (front ++ ['[']).length)
    (behind : rest.Placed (front ++ '[' :: (body.text ++ [']']) ++ (rest.text ++ back))
      (front ++ '[' :: (body.text ++ [']'])).length) :
    (loop body rest).Placed (front ++ ((loop body rest).text ++ back)) front.length := by
  have past : (front ++ '[' :: (body.text ++ [']'])).length =
      front.length + 1 + body.text.length + 1 := by
    simp only [List.length_append, List.length_cons, List.length_nil]
    omega
  have whole : '[' :: (body.text ++ [']']) ++ (rest.text ++ back) =
      (loop body rest).text ++ back := by
    simp only [text, List.cons_append, List.append_assoc, List.nil_append]
  have opened : ['['] ++ (body.text ++ ']' :: (rest.text ++ back)) =
      (loop body rest).text ++ back := by
    simp only [text, List.cons_append, List.append_assoc, List.nil_append]
  have encloses := encloses_loop nested front (rest.text ++ back)
  rw [← List.singleton_append, opened] at encloses
  rw [List.append_assoc, opened, List.length_append] at inside
  rw [List.append_assoc, whole, past] at behind
  exact ⟨encloses, inside, behind⟩

theorem Enclosed.placed {row : Tree} (enclosed : row.Enclosed) (front back : List Char) :
    row.Placed (front ++ (row.text ++ back)) front.length := by
  induction row generalizing front back with
  | nil => trivial
  | leaf characters rest inductionHypothesis =>
      rcases enclosed with ⟨⟨character, single, notStart, notStop⟩, later⟩
      rw [single]
      exact placed_leaf notStart (fun same => absurd same notStop)
        (inductionHypothesis later _ back)
  | loop body rest bodyHypothesis restHypothesis =>
      exact placed_loop enclosed.1.nested (bodyHypothesis enclosed.1 _ _)
        (restHypothesis enclosed.2 _ back)

theorem Canonical.placed {row : Tree} (canonical : row.Canonical) {front : List Char}
    (terminated : Terminated front) (back : List Char) :
    row.Placed (front ++ (row.text ++ back)) front.length := by
  induction row generalizing front back with
  | nil => trivial
  | leaf characters rest inductionHypothesis =>
      rcases canonical with ⟨⟨character, single, notStart⟩, later⟩
      have first : Terminated [character] := Terminated.nil.cons (opening_nonpos notStart)
      rw [single]
      refine placed_leaf notStart ?_ (inductionHypothesis later (terminated.append first) back)
      intro same
      rw [same]
      exact loopBegin?_behind_terminated terminated _
  | loop body rest _ restHypothesis =>
      have first : Terminated ('[' :: (body.text ++ [']'])) :=
        Terminated.loop canonical.1.nested Terminated.nil
      exact placed_loop canonical.1.nested (canonical.1.placed _ _)
        (restHypothesis canonical.2 (terminated.append first) back)

/-- What was read from a text is placed at its beginning. -/
theorem placed_of_read {source : List Char} {tree : Tree} (reads : read source = .ok tree) :
    tree.Placed source 0 := by
  rcases (read_eq_ok_iff source tree).mp reads with ⟨canonical, same⟩
  have placed := canonical.placed Terminated.nil []
  rwa [List.nil_append, List.append_nil, ← same] at placed

end Tree
end LoopTape
