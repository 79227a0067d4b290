import LoopTape.Bracket.Body
import LoopTape.Tree.Basic

namespace LoopTape
namespace Tree

/-!
# Reading the loops of a text

A text is read with a stack of frames.  Each frame reads one row: the bottom
frame the whole text, every other frame the body of the loop that the frame
below it has come to.  A character other than an opening bracket becomes a leaf
of the frame's row, a closing bracket included.  At an opening bracket the body
of the loop is collected, the frame moves past the whole loop, and a new frame
reads the body.  A frame at the end of its text hands its row to the frame
below, as the body of a loop.

Nested texts are therefore met more than once, first as part of the bodies
around them and then by their own frame.  Still every move takes one character
or ends one frame, and a text of `n` characters that can be read is read in
`n + 1` moves.
-/

/-- A row that is being read. -/
structure Frame where
  /-- The nodes read so far, last node first. -/
  nodes : Tree
  /-- The text of the row. -/
  body : List Char
  /-- Where that text begins in the whole text. -/
  offset : Nat
  /-- The position in the row's own text of the next character. -/
  index : Nat
  deriving DecidableEq

namespace Frame

/-- A frame at the beginning of its text. -/
def start (body : List Char) (offset : Nat) : Frame := ⟨.nil, body, offset, 0⟩

/-- The row read so far, in order. -/
def row (frame : Frame) : Tree := frame.nodes.reverse

/-- The characters of the row not yet read. -/
def unread (frame : Frame) : List Char := frame.body.drop frame.index

/-- Take the next character as a leaf. -/
def takeLeaf (frame : Frame) (character : Char) : Frame :=
  { frame with nodes := .leaf [character] frame.nodes, index := frame.index + 1 }

/-- Move past a loop whose body has the given length.  Its node comes later. -/
def passLoop (frame : Frame) (bodyLength : Nat) : Frame :=
  { frame with index := frame.index + bodyLength + 2 }

/-- Take a row that has been read as the body of the loop just passed. -/
def takeLoop (frame : Frame) (body : Tree) : Frame :=
  { frame with nodes := .loop body frame.nodes }

/-- The moves that a frame can still make, its end included. -/
def remaining (frame : Frame) : Nat := frame.unread.length + 1

end Frame

/-- The moves that a stack of frames can still make. -/
def remainingMoves : List Frame -> Nat
  | [] => 0
  | frame :: outer => frame.remaining + remainingMoves outer

/-- Where reading stands after a move. -/
inductive Reading where
  /-- A frame is being read above others. -/
  | under (frame : Frame) (outer : List Frame)
  /-- The whole text has been read. -/
  | finished (tree : Tree)
  /-- A loop was opened that is never closed. -/
  | unmatched (bracket : Bracket.Unmatched)

/-- Make one move in the topmost frame. -/
def move (frame : Frame) (outer : List Frame) : Reading :=
  match frame.unread with
  | [] =>
    match outer with
    | [] => .finished frame.row
    | below :: outer => .under (below.takeLoop frame.row) outer
  | character :: rest =>
    match Instruction.ofChar? character with
    | some .loopStart =>
      let body := Bracket.collect rest
      if body.closed then
        .under (.start body.inner (frame.offset + frame.index + 1))
          (frame.passLoop body.inner.length :: outer)
      else .unmatched ⟨frame.offset + frame.index⟩
    | _ => .under (frame.takeLeaf character) outer

/-- Each move uses up exactly one of the moves that remained. -/
theorem remainingMoves_move {frame next : Frame} {outer nextOuter : List Frame}
    (moved : move frame outer = .under next nextOuter) :
    remainingMoves (frame :: outer) = remainingMoves (next :: nextOuter) + 1 := by
  unfold move at moved
  split at moved
  · rename_i ended
    cases outer with
    | nil => cases moved
    | cons below outer =>
      cases moved
      simp only [remainingMoves, Frame.remaining, Frame.unread,
        Frame.takeLoop] at ended ⊢
      rw [ended]
      simp only [List.length_nil]
      omega
  · rename_i character rest unread
    have length : frame.unread.length = rest.length + 1 := by
      rw [unread, List.length_cons]
    simp only [Frame.unread, List.length_drop] at length
    split at moved
    · dsimp only at moved
      split at moved
      · rename_i closed
        cases moved
        have fits := Bracket.collect_length closed
        simp only [remainingMoves, Frame.remaining, Frame.unread,
          Frame.start, Frame.passLoop, List.length_drop]
        omega
      · cases moved
    · cases moved
      simp only [remainingMoves, Frame.remaining, Frame.unread,
        Frame.takeLeaf, List.length_drop]
      omega

/-- Move until the text has been read or a loop is found that is not closed. -/
def readFrom (frame : Frame) (outer : List Frame) : Except Bracket.Unmatched Tree :=
  match _moved : move frame outer with
  | .finished tree => .ok tree
  | .unmatched bracket => .error bracket
  | .under next nextOuter => readFrom next nextOuter
termination_by remainingMoves (frame :: outer)
decreasing_by
  have step := remainingMoves_move _moved
  omega

/-- The tree of a text, or the opening bracket that makes it unreadable. -/
def read (text : List Char) : Except Bracket.Unmatched Tree := readFrom (.start text 0) []

end Tree
end LoopTape
