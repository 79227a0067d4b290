import LoopTape.Proofs.Tree.Shape
import LoopTape.Tree.Reading

namespace LoopTape
namespace Tree

/-!
# What reading answers

A frame whose unread text begins with the text of a canonical row reads this row
and stands behind it.  The frames below it do not matter, and the loops of the
row come and go as frames of their own above it.  This is proved along the row:
a leaf is one move, and a loop is a move that opens its frame, the moves of its
body, and the move that hands the body down.

Since every text is written from a canonical tree or breaks off behind one, the
answer to every text follows.
-/

open LoopTape.Bracket

/-! ## Rows turned around -/

theorem reverseOnto_reverseOnto (first second third : Tree) :
    (first.reverseOnto second).reverseOnto third = second.reverseOnto (first ++ third) := by
  induction first generalizing second with
  | nil => rfl
  | leaf characters rest inductionHypothesis => exact inductionHypothesis _
  | loop body rest _ inductionHypothesis => exact inductionHypothesis _

theorem reverse_reverseOnto_nil (row : Tree) : (row.reverseOnto nil).reverse = row := by
  rw [reverse, reverseOnto_reverseOnto, append_nil]
  rfl

/-! ## Single moves -/

variable {frame : Frame} {outer : List Frame}

theorem move_leaf {character : Char} {rest : List Char} (unread : frame.unread = character :: rest)
    (notStart : character ≠ '[') : move frame outer = .under (frame.takeLeaf character) outer := by
  unfold move
  simp only [unread]
  split
  · rename_i reads
    exact absurd ((Instruction.ofChar?_eq_some_iff _ _).mp reads) notStart
  · rfl

theorem move_loop {rest inner : List Char} (unread : frame.unread = '[' :: rest)
    (collected : collect rest = ⟨inner, true⟩) :
    move frame outer =
      .under (.start inner (frame.offset + frame.index + 1))
        (frame.passLoop inner.length :: outer) := by
  unfold move
  simp only [unread, collected, Instruction.ofChar?, if_true]

theorem move_unclosed {rest : List Char} (unread : frame.unread = '[' :: rest)
    (unclosed : (collect rest).closed = false) :
    move frame outer = .unmatched ⟨frame.offset + frame.index⟩ := by
  unfold move
  simp only [unread, unclosed, Instruction.ofChar?, Bool.false_eq_true, if_false]

theorem move_end (unread : frame.unread = []) : move frame [] = .finished frame.row := by
  unfold move
  simp only [unread]

theorem move_up (unread : frame.unread = []) (below : Frame) :
    move frame (below :: outer) = .under (below.takeLoop frame.row) outer := by
  unfold move
  simp only [unread]

/-- Reading makes a move and goes on with what the move says. -/
theorem readFrom_eq (frame : Frame) (outer : List Frame) :
    readFrom frame outer =
      match move frame outer with
      | .finished tree => .ok tree
      | .unmatched bracket => .error bracket
      | .under next nextOuter => readFrom next nextOuter := by
  rw [readFrom]
  split
  · rename_i moved
    rw [moved]
  · rename_i moved
    rw [moved]
  · rename_i moved
    rw [moved]

/-! ## Rows -/

/-- The frame behind a row that it reads. -/
def Frame.takeRow (frame : Frame) (row : Tree) : Frame :=
  { frame with nodes := row.reverseOnto frame.nodes, index := frame.index + row.text.length }

theorem drop_add_length_of_drop {text back : List Char} {index : Nat} (front : List Char)
    (ahead : text.drop index = front ++ back) : text.drop (index + front.length) = back := by
  rw [← List.drop_drop, ahead, List.drop_left]

theorem unread_takeRow {row : Tree} {more : List Char} (unread : frame.unread = row.text ++ more) :
    (frame.takeRow row).unread = more :=
  drop_add_length_of_drop row.text unread

/-- A frame reads the canonical row that its unread text begins with. -/
theorem readFrom_row {row : Tree} (canonical : row.Canonical) {more : List Char}
    (unread : frame.unread = row.text ++ more) (outer : List Frame) :
    readFrom frame outer = readFrom (frame.takeRow row) outer := by
  induction row generalizing frame more outer with
  | nil => rfl
  | leaf characters rest inductionHypothesis =>
      rcases canonical with ⟨⟨character, single, notStart⟩, later⟩
      rw [text, single, List.append_assoc, List.singleton_append] at unread
      have behind : (frame.takeLeaf character).unread = rest.text ++ more :=
        drop_add_length_of_drop [character] unread
      rw [readFrom_eq, move_leaf unread notStart]
      dsimp only
      rw [inductionHypothesis later behind]
      congr 1
      simp only [Frame.takeRow, Frame.takeLeaf, reverseOnto, text, single, List.length_append,
        List.length_singleton, Nat.add_assoc]
  | loop body rest bodyHypothesis restHypothesis =>
      rcases canonical with ⟨enclosed, later⟩
      rw [text, List.cons_append, List.append_assoc, List.cons_append] at unread
      have collected := collect_append enclosed.nested (rest.text ++ more)
      have inside : (Frame.start body.text (frame.offset + frame.index + 1)).unread =
          body.text ++ [] := by
        rw [List.append_nil]
        rfl
      have handed : ((Frame.start body.text (frame.offset + frame.index + 1)).takeRow body).row =
          body := reverse_reverseOnto_nil body
      have length : ('[' :: (body.text ++ [']'])).length = body.text.length + 2 := by
        rw [List.length_cons, List.length_append, List.length_singleton]
      have behind : ((frame.passLoop body.text.length).takeLoop body).unread =
          rest.text ++ more := by
        have ahead : frame.body.drop frame.index =
            '[' :: (body.text ++ [']']) ++ (rest.text ++ more) := by
          rw [List.cons_append, List.append_assoc, List.singleton_append]
          exact unread
        have dropped := drop_add_length_of_drop _ ahead
        rw [length] at dropped
        exact dropped
      rw [readFrom_eq, move_loop unread collected]
      dsimp only
      rw [bodyHypothesis enclosed.canonical inside, readFrom_eq, move_up (unread_takeRow inside),
        handed]
      dsimp only
      rw [restHypothesis later behind]
      congr 1
      simp only [Frame.takeRow, Frame.takeLoop, Frame.passLoop, reverseOnto, text,
        List.length_cons, List.length_append, Frame.mk.injEq, true_and]
      omega

/-! ## Whole texts -/

/-- The text of a canonical tree is read as this tree. -/
theorem read_text {tree : Tree} (canonical : tree.Canonical) : read tree.text = .ok tree := by
  have unread : (Frame.start tree.text 0).unread = tree.text ++ [] := by
    rw [List.append_nil]
    rfl
  have row : ((Frame.start tree.text 0).takeRow tree).row = tree := reverse_reverseOnto_nil tree
  rw [read, readFrom_row canonical unread, readFrom_eq, move_end (unread_takeRow unread), row]

/-- A text that breaks off behind a canonical tree is refused at the bracket
that stands there. -/
theorem read_brokenOff {tree : Tree} (canonical : tree.Canonical) {rest : List Char}
    (unclosed : forall position, 0 ≤ heightAt rest position) :
    read (tree.text ++ '[' :: rest) = .error ⟨tree.text.length⟩ := by
  have unread : (Frame.start (tree.text ++ '[' :: rest) 0).unread = tree.text ++ '[' :: rest := rfl
  rw [read, readFrom_row canonical unread, readFrom_eq,
    move_unclosed (unread_takeRow unread) ((collect_closed_eq_false_iff rest).mpr unclosed)]
  simp only [Frame.takeRow, Frame.start, Nat.zero_add]

/-- A text is read exactly as the canonical tree that it is the text of. -/
theorem read_eq_ok_iff (source : List Char) (tree : Tree) :
    read source = .ok tree ↔ tree.Canonical ∧ source = tree.text := by
  constructor
  · intro reads
    cases shape source with
    | written other canonical same =>
        rw [same, read_text canonical] at reads
        rw [← Except.ok.inj reads]
        exact ⟨canonical, same⟩
    | brokenOff other rest canonical same unclosed =>
        rw [same, read_brokenOff canonical unclosed] at reads
        cases reads
  · rintro ⟨canonical, same⟩
    rw [same, read_text canonical]

end Tree
end LoopTape
