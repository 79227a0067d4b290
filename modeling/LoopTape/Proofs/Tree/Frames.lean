import LoopTape.Proofs.Bracket.Collections
import LoopTape.Proofs.Tree.Placement

namespace LoopTape
namespace Tree

/-!
# Frames of a reading

Every frame of a reading holds a text of its own, and this text is a piece of the whole text.
The frame at the bottom holds the whole text.  Every other frame holds the body of a loop, and
the frame below it has moved past this loop, so the two of them never read the same character.

The body of a loop is a text in which all brackets belong together.  A loop that is opened
inside it is therefore closed inside it, and a collection can come to the end of its text only
in the bottom frame.  This is why the bracket that is blamed is one of the whole text and why
nothing has been read of what stands behind it.

A move uses up one of the moves that the frames can still make.  At first there are as many
as there are characters and one more, and this number is what is left to count: a text that
can be read leaves none of them, and at a bracket that is blamed there are as many left as
there are characters from it on, and one more.
-/

open LoopTape.Bracket

/-! ## Moves -/

/-- What a move comes to. -/
inductive Moved (frame : Frame) (outer : List Frame) : Reading -> Prop where
  | leaf {character : Char} {rest : List Char} (unread : frame.unread = character :: rest)
      (notStart : character ≠ '[') : Moved frame outer (.under (frame.takeLeaf character) outer)
  | loop {inner after : List Char} (unread : frame.unread = '[' :: (inner ++ ']' :: after))
      (nested : Nested inner) :
      Moved frame outer
        (.under (.start inner (frame.offset + frame.index + 1))
          (frame.passLoop inner.length :: outer))
  | handed {below : Frame} {rest : List Frame} (unread : frame.unread = [])
      (waiting : outer = below :: rest) :
      Moved frame outer (.under (below.takeLoop frame.row) rest)
  | finished (unread : frame.unread = []) (alone : outer = []) :
      Moved frame outer (.finished frame.row)
  | unmatched {rest : List Char} (unread : frame.unread = '[' :: rest)
      (unclosed : (collect rest).closed = false) :
      Moved frame outer (.unmatched ⟨frame.offset + frame.index⟩)

theorem moved_move (frame : Frame) (outer : List Frame) : Moved frame outer (move frame outer) := by
  cases unread : frame.unread with
  | nil =>
      cases outer with
      | nil =>
          rw [move_end unread]
          exact .finished unread rfl
      | cons below rest =>
          rw [move_up unread]
          exact .handed unread rfl
  | cons character rest =>
      by_cases isStart : character = '['
      · rw [isStart] at unread
        cases closed : (collect rest).closed with
        | false =>
            rw [move_unclosed unread closed]
            exact .unmatched unread closed
        | true =>
            rcases nested_of_collect_closed closed with ⟨nested, after, split⟩
            have collected := collect_append nested after
            rw [← split] at collected
            rw [move_loop unread collected]
            rw [split] at unread
            exact .loop unread nested
      · rw [move_leaf unread isStart]
        exact .leaf unread isStart

/-- Where a reading stands one move later.  One that has ended stays as it is. -/
def Reading.next : Reading -> Reading
  | under frame outer => move frame outer
  | ended => ended

/-- Where the reading of a text stands after a number of moves. -/
def readingAfter (source : List Char) : Nat -> Reading
  | 0 => .under (.start source 0) []
  | count + 1 => (readingAfter source count).next

/-! ## Pieces of the text -/

/-- A frame that holds a piece of the text, and stands at one of its characters or behind
the last. -/
structure Frame.Within (source : List Char) (frame : Frame) : Prop where
  piece : frame.body = (source.drop frame.offset).take frame.body.length
  fits : frame.offset + frame.body.length ≤ source.length
  index : frame.index ≤ frame.body.length

/-- A frame that holds the body of a loop which the frame below it has just passed. -/
structure Frame.Entered (source : List Char) (frame below : Frame) : Prop where
  loop : Exists fun start => frame.offset = start + 1 ∧ source[start]? = some '[' ∧
    closingPartner? source start = some (frame.offset + frame.body.length)
  passed : below.offset + below.index = frame.offset + frame.body.length + 1
  even : frame.body.count '[' = frame.body.count ']'
  covered : forall place,
    (frame.body.take place).count ']' ≤ (frame.body.take place).count '['

/-- Frames above one another: the whole text at the bottom, and bodies of loops above it. -/
inductive Stacked (source : List Char) : Frame -> List Frame -> Prop where
  | root {frame : Frame} (whole : frame.body = source) (front : frame.offset = 0)
      (within : frame.Within source) : Stacked source frame []
  | loop {frame below : Frame} {outer : List Frame} (within : frame.Within source)
      (entered : frame.Entered source below) (lower : Stacked source below outer) :
      Stacked source frame (below :: outer)

variable {source : List Char} {frame : Frame} {outer : List Frame}

theorem Frame.Entered.nested {below : Frame} (entered : frame.Entered source below) :
    Nested frame.body := by
  have even := entered.even
  refine ⟨?_, fun place => ?_⟩
  · rw [balance_eq_count_sub_count]
    omega
  · have covered := entered.covered place
    rw [heightAt, balance_eq_count_sub_count]
    omega

theorem Stacked.within (stacked : Stacked source frame outer) : frame.Within source := by
  cases stacked with
  | root _ _ within => exact within
  | loop within _ _ => exact within

/-- What a frame has not read goes on with what stands behind its piece. -/
theorem Frame.Within.drop_eq (within : frame.Within source) :
    source.drop (frame.offset + frame.index) =
      frame.unread ++ source.drop (frame.offset + frame.body.length) := by
  have pieces := List.take_append_drop frame.body.length (source.drop frame.offset)
  rw [← within.piece, List.drop_drop] at pieces
  rw [← List.drop_drop, ← pieces, List.drop_append_of_le_length within.index]
  rfl

/-- A frame may go on in its own text without regard to the frames below. -/
theorem Stacked.advance (stacked : Stacked source frame outer) (nodes : Tree) {index : Nat}
    (inside : index ≤ frame.body.length) :
    Stacked source ⟨nodes, frame.body, frame.offset, index⟩ outer := by
  cases stacked with
  | root whole front within => exact .root whole front ⟨within.piece, within.fits, inside⟩
  | loop within entered lower =>
      exact .loop ⟨within.piece, within.fits, inside⟩
        ⟨entered.loop, entered.passed, entered.even, entered.covered⟩ lower

theorem length_unread (frame : Frame) :
    frame.unread.length = frame.body.length - frame.index :=
  List.length_drop

/-- Collecting a body opens a frame for it. -/
theorem Stacked.enter (stacked : Stacked source frame outer) {inner after : List Char}
    (unread : frame.unread = '[' :: (inner ++ ']' :: after)) (nested : Nested inner) :
    Stacked source (.start inner (frame.offset + frame.index + 1))
      (frame.passLoop inner.length :: outer) := by
  have within := stacked.within
  have ahead := within.drop_eq
  rw [unread, List.cons_append, List.append_assoc, List.cons_append] at ahead
  have length := length_unread frame
  simp only [unread, List.length_cons, List.length_append] at length
  have fits := within.fits
  have split : source = source.take (frame.offset + frame.index) ++
      '[' :: (inner ++ ']' :: (after ++ source.drop (frame.offset + frame.body.length))) := by
    rw [← ahead, List.take_append_drop]
  have front : (source.take (frame.offset + frame.index)).length = frame.offset + frame.index :=
    List.length_take_of_le (by omega)
  have encloses := encloses_loop nested (source.take (frame.offset + frame.index))
    (after ++ source.drop (frame.offset + frame.body.length))
  rw [← split, front] at encloses
  refine .loop ⟨?_, ?_, Nat.zero_le _⟩ ⟨⟨_, rfl, encloses.opens, ?_⟩, ?_, nested.count_eq,
    nested.count_take_le⟩ (stacked.advance _ ?_)
  · have behind := congrArg (List.drop 1) ahead
    rw [List.drop_drop, List.drop_succ_cons, List.drop_zero] at behind
    simp only [Frame.start, behind, List.take_left]
  · exact Nat.le_of_lt encloses.inside
  · exact (closingPartner?_eq_some_iff _ _ _).mpr encloses
  · simp only [Frame.passLoop, Frame.start]
    omega
  · omega

/-- Every move keeps the frames in order. -/
theorem Stacked.move (stacked : Stacked source frame outer) {next : Frame}
    {nextOuter : List Frame} (moved : Tree.move frame outer = .under next nextOuter) :
    Stacked source next nextOuter := by
  have cases := moved_move frame outer
  rw [moved] at cases
  cases cases with
  | leaf unread notStart =>
      have length := length_unread frame
      rw [unread, List.length_cons] at length
      exact stacked.advance _ (by omega)
  | loop unread nested => exact stacked.enter unread nested
  | handed unread waiting =>
      rw [waiting] at stacked
      cases stacked with
      | loop _ _ lower => exact lower.advance _ lower.within.index

/-- In a frame above another every loop that is opened is closed. -/
theorem Stacked.alone_of_unclosed (stacked : Stacked source frame outer) {rest : List Char}
    (unread : frame.unread = '[' :: rest) (unclosed : (collect rest).closed = false) :
    outer = [] := by
  cases stacked with
  | root _ _ _ => rfl
  | loop within entered _ =>
      have nested := entered.nested
      have split := List.take_append_drop frame.index frame.body
      have total := nested.level
      rw [← split, show frame.body.drop frame.index = '[' :: rest from unread, balance_append,
        balance_cons, show opening '[' = 1 from rfl] at total
      have front := nested.nonneg frame.index
      have back := (collect_closed_eq_false_iff rest).mp unclosed rest.length
      rw [heightAt_length] at back
      rw [heightAt] at front
      omega

/-! ## Numbers of moves -/

variable {count : Nat}

theorem readingAfter_succ (reading : readingAfter source count = .under frame outer) :
    readingAfter source (count + 1) = Tree.move frame outer := by
  rw [readingAfter, reading]
  rfl

theorem exists_under_of_succ (reading : readingAfter source (count + 1) = .under frame outer) :
    Exists fun earlier => Exists fun earlierOuter =>
      readingAfter source count = .under earlier earlierOuter ∧
        Tree.move earlier earlierOuter = .under frame outer := by
  rw [readingAfter] at reading
  cases before : readingAfter source count with
  | under earlier earlierOuter =>
      rw [before] at reading
      exact ⟨earlier, earlierOuter, rfl, reading⟩
  | finished tree =>
      rw [before] at reading
      cases reading
  | unmatched bracket =>
      rw [before] at reading
      cases reading

theorem stacked_readingAfter (reading : readingAfter source count = .under frame outer) :
    Stacked source frame outer := by
  induction count generalizing frame outer with
  | zero =>
      cases reading
      refine .root rfl rfl ⟨?_, Nat.le_of_eq (Nat.zero_add _), Nat.zero_le _⟩
      exact List.take_length.symm
  | succ count inductionHypothesis =>
      rcases exists_under_of_succ reading with ⟨earlier, earlierOuter, before, moved⟩
      exact (inductionHypothesis before).move moved

/-- The moves that have been made and those that can still be made are always as many. -/
theorem count_add_remainingMoves (reading : readingAfter source count = .under frame outer) :
    count + remainingMoves (frame :: outer) = source.length + 1 := by
  induction count generalizing frame outer with
  | zero =>
      cases reading
      simp only [remainingMoves, Frame.remaining, Frame.unread, Frame.start, List.drop_zero]
      omega
  | succ count inductionHypothesis =>
      rcases exists_under_of_succ reading with ⟨earlier, earlierOuter, before, moved⟩
      have total := inductionHypothesis before
      rw [remainingMoves_move moved] at total
      omega

theorem read_eq_readFrom (reading : readingAfter source count = .under frame outer) :
    read source = readFrom frame outer := by
  induction count generalizing frame outer with
  | zero =>
      cases reading
      rfl
  | succ count inductionHypothesis =>
      rcases exists_under_of_succ reading with ⟨earlier, earlierOuter, before, moved⟩
      rw [inductionHypothesis before, readFrom_eq, moved]

/-- A reading that ends with a certain move, and with no earlier one. -/
structure EndsWith (source : List Char) (count : Nat) (ending : Reading) : Prop where
  ends : readingAfter source count = ending
  before : forall earlier, earlier < count -> Exists fun frame => Exists fun outer =>
    readingAfter source earlier = .under frame outer

theorem exists_under_of_le {earlier : Nat} (ordered : earlier ≤ count)
    (reading : readingAfter source count = .under frame outer) :
    Exists fun frame => Exists fun outer => readingAfter source earlier = .under frame outer := by
  induction count generalizing frame outer with
  | zero => exact ⟨frame, outer, (Nat.le_zero.mp ordered) ▸ reading⟩
  | succ count inductionHypothesis =>
      rcases Nat.lt_or_eq_of_le ordered with less | same
      · rcases exists_under_of_succ reading with ⟨before, beforeOuter, stood, _⟩
        exact inductionHypothesis (Nat.le_of_lt_succ less) stood
      · exact ⟨frame, outer, same ▸ reading⟩

/-- A reading that has not ended yet ends with some later move: with the last one that was
left, or at a bracket that is never closed. -/
theorem endsWith_of_under (reading : readingAfter source count = .under frame outer) :
    (Exists fun tree => read source = .ok tree ∧
      EndsWith source (source.length + 1) (.finished tree)) ∨
    Exists fun position => read source = .error ⟨position⟩ ∧
      EndsWith source (position + 1) (.unmatched ⟨position⟩) := by
  induction left : remainingMoves (frame :: outer) generalizing count frame outer with
  | zero =>
      simp only [remainingMoves, Frame.remaining] at left
      omega
  | succ fewer inductionHypothesis =>
      have cases := moved_move frame outer
      have after := readingAfter_succ reading
      have total := count_add_remainingMoves reading
      have reads := (read_eq_readFrom reading).trans (readFrom_eq frame outer)
      have before : forall earlier, earlier < count + 1 -> Exists fun frame =>
          Exists fun outer => readingAfter source earlier = .under frame outer :=
        fun earlier less => exists_under_of_le (Nat.le_of_lt_succ less) reading
      cases moved : Tree.move frame outer with
      | under next nextOuter =>
          have fewerLeft := remainingMoves_move moved
          exact inductionHypothesis (after.trans moved) (by omega)
      | finished tree =>
          rw [moved] at cases reads after
          cases cases with
          | finished unread alone =>
              rw [alone, remainingMoves, remainingMoves, Frame.remaining, unread,
                List.length_nil] at total
              rw [show count = source.length by omega] at after before
              exact Or.inl ⟨_, reads, after, before⟩
      | unmatched bracket =>
          rw [moved] at cases reads after
          cases cases with
          | unmatched unread unclosed =>
              have stacked := stacked_readingAfter reading
              have alone := stacked.alone_of_unclosed unread unclosed
              rw [alone] at stacked total
              cases stacked with
              | root whole front within =>
                  have index := within.index
                  rw [remainingMoves, remainingMoves, Frame.remaining, length_unread,
                    whole] at total
                  rw [whole] at index
                  rw [show count = frame.offset + frame.index by omega] at after before
                  exact Or.inr ⟨_, reads, after, before⟩

theorem EndsWith.unique {other : Nat} {ending otherEnding : Reading}
    (first : EndsWith source count ending) (second : EndsWith source other otherEnding)
    (ended : forall frame outer, ending ≠ .under frame outer)
    (otherEnded : forall frame outer, otherEnding ≠ .under frame outer) :
    count = other ∧ ending = otherEnding := by
  have notLess : ¬ count < other := by
    intro less
    rcases second.before count less with ⟨frame, outer, reading⟩
    exact ended frame outer (first.ends.symm.trans reading)
  have notGreater : ¬ other < count := by
    intro less
    rcases first.before other less with ⟨frame, outer, reading⟩
    exact otherEnded frame outer (second.ends.symm.trans reading)
  have same : count = other := by omega
  refine ⟨same, ?_⟩
  rw [← first.ends, ← second.ends, same]

/-- A reading has one end, and what is read says which. -/
theorem endsWith_iff {ending : Reading} (ended : forall frame outer, ending ≠ .under frame outer) :
    EndsWith source count ending ↔
      (Exists fun tree => read source = .ok tree ∧ count = source.length + 1 ∧
        ending = .finished tree) ∨
      Exists fun position => read source = .error ⟨position⟩ ∧ count = position + 1 ∧
        ending = .unmatched ⟨position⟩ := by
  have start : readingAfter source 0 = .under (.start source 0) [] := rfl
  constructor
  · intro ends
    rcases endsWith_of_under start with ⟨tree, reads, actual⟩ | ⟨position, fails, actual⟩
    · exact Or.inl ⟨tree, reads, ends.unique actual ended nofun⟩
    · exact Or.inr ⟨position, fails, ends.unique actual ended nofun⟩
  · rintro (⟨tree, reads, rfl, rfl⟩ | ⟨position, fails, rfl, rfl⟩)
    · rcases endsWith_of_under start with ⟨other, same, actual⟩ | ⟨position, fails, _⟩
      · rw [reads] at same
        cases same
        exact actual
      · rw [reads] at fails
        cases fails
    · rcases endsWith_of_under start with ⟨tree, reads, _⟩ | ⟨other, same, actual⟩
      · rw [fails] at reads
        cases reads
      · rw [fails] at same
        cases same
        exact actual

/-- The frames of a reading are in order whenever a move is to be made, and a body that is
collected can be left unclosed only in the bottom frame.  A reading always ends.  It ends with
one move more than there are characters when the text can be read, and with one move more than
there are characters in front of the bracket when a bracket is blamed. -/
theorem frames_hold_bodies_of_loops (source : List Char) :
    (forall count frame outer, readingAfter source count = .under frame outer ->
      Stacked source frame outer ∧
        forall rest, frame.unread = '[' :: rest -> (collect rest).closed = false -> outer = []) ∧
    (forall count tree, EndsWith source count (.finished tree) ↔
      read source = .ok tree ∧ count = source.length + 1) ∧
    forall count position, EndsWith source count (.unmatched ⟨position⟩) ↔
      read source = .error ⟨position⟩ ∧ count = position + 1 := by
  refine ⟨?_, ?_, ?_⟩
  · intro count frame outer reading
    have stacked := stacked_readingAfter reading
    exact ⟨stacked, fun rest unread unclosed => stacked.alone_of_unclosed unread unclosed⟩
  · intro count tree
    have ended : forall frame outer, Reading.finished tree ≠ .under frame outer := nofun
    rw [endsWith_iff ended]
    constructor
    · rintro (⟨other, reads, counts, same⟩ | ⟨position, _, _, impossible⟩)
      · cases same
        exact ⟨reads, counts⟩
      · cases impossible
    · rintro ⟨reads, counts⟩
      exact Or.inl ⟨tree, reads, counts, rfl⟩
  · intro count position
    have ended : forall frame outer, Reading.unmatched ⟨position⟩ ≠ .under frame outer := nofun
    rw [endsWith_iff ended]
    constructor
    · rintro (⟨tree, _, _, impossible⟩ | ⟨other, fails, counts, same⟩)
      · cases impossible
      · cases same
        exact ⟨fails, counts⟩
    · rintro ⟨fails, counts⟩
      exact Or.inr ⟨position, fails, counts, rfl⟩

/-- A loop inside a loop has just been opened, and two frames wait below it.  The loop that is
left open stands behind both and is met by the bottom frame alone. -/
theorem frames_of_nested_loop :
    readingAfter ['[', '+', '[', ']', ']', '['] 3 =
        .under (.start [] 3) [⟨leaf ['+'] nil, ['+', '[', ']'], 1, 3⟩,
          ⟨nil, ['[', '+', '[', ']', ']', '['], 0, 5⟩] ∧
      Stacked ['[', '+', '[', ']', ']', '['] (.start [] 3) [⟨leaf ['+'] nil, ['+', '[', ']'], 1, 3⟩,
        ⟨nil, ['[', '+', '[', ']', ']', '['], 0, 5⟩] ∧
      (Exists fun frame => Exists fun outer =>
        readingAfter ['[', '+', '[', ']', ']', '['] 5 = .under frame outer ∧
          frame.unread = ['['] ∧ (collect []).closed = false ∧ outer = []) ∧
      EndsWith ['[', '+', '[', ']', ']', '['] 6 (.unmatched ⟨5⟩) := by
  rcases frames_hold_bodies_of_loops ['[', '+', '[', ']', ']', '['] with ⟨frames, _, blamed⟩
  have fails : read ['[', '+', '[', ']', ']', '['] = .error ⟨5⟩ := by cbv
  refine ⟨rfl, (frames 3 _ _ rfl).1, ⟨_, _, rfl, rfl, rfl, ?_⟩, (blamed 6 5).mpr ⟨fails, rfl⟩⟩
  exact (frames 5 _ _ rfl).2 [] rfl rfl

end Tree
end LoopTape
