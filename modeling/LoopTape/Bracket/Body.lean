import LoopTape.Instruction
import LoopTape.Text.Index

namespace LoopTape
namespace Bracket

/-!
# Loop bodies

Reading a loop means collecting the text between its opening bracket and the
closing bracket that ends it.  The collection starts just after the opening
bracket and counts the loops that were opened inside the body and are still
open.  A closing bracket met while none of them is open ends the body.

If the text ends first, the body is all that was left of it and the loop has
not been closed.  The number of characters passed never has to be kept, since
it is the length of the body.
-/

/-- An opening bracket that no closing bracket ends, by its position. -/
structure Unmatched where
  position : Nat
  deriving DecidableEq

/-- The text after an opening bracket, up to the end of the loop. -/
structure Body where
  inner : List Char
  /-- Whether a closing bracket ended the loop, rather than the end of the text. -/
  closed : Bool
  deriving DecidableEq

/-- Collect a body while `depth` loops inside it are open.  What has been
collected already is kept in reverse. -/
def collectFrom (depth : Nat) (collected : List Char) : List Char -> Body
  | [] => ⟨collected.reverse, false⟩
  | character :: rest =>
    match Instruction.ofChar? character with
    | some .loopStart => collectFrom (depth + 1) (character :: collected) rest
    | some .loopStop =>
      match depth with
      | 0 => ⟨collected.reverse, true⟩
      | depth + 1 => collectFrom depth (character :: collected) rest
    | _ => collectFrom depth (character :: collected) rest

/-- Collect the body of a loop from the text after its opening bracket. -/
def collect (rest : List Char) : Body := collectFrom 0 [] rest

/-- The index just past the loop that is taken to open at `start`, if it is
closed.  The character at `start` itself is not looked at. -/
def Body.next? (body : Body) (start : Int) : Option Int :=
  if body.closed then some (start + body.inner.length + 2) else none

/-- The body of the loop that is taken to open at a signed index. -/
def bodyAt (text : List Char) (start : Int) : Except Text.IndexFault Body :=
  (Text.upward text (start + 1)).map collect

/-- Collection adds to what was collected the characters before the end. -/
theorem collectFrom_length {depth : Nat} {collected rest : List Char}
    (closed : (collectFrom depth collected rest).closed = true) :
    (collectFrom depth collected rest).inner.length + 1 ≤ collected.length + rest.length := by
  induction rest generalizing depth collected with
  | nil => cases closed
  | cons character rest inductionHypothesis =>
    unfold collectFrom at closed ⊢
    split
    · rename_i reads
      rw [reads] at closed
      have later := inductionHypothesis closed
      simp only [List.length_cons] at later ⊢
      omega
    · rename_i reads
      rw [reads] at closed
      cases depth with
      | zero => simp only [List.length_reverse, List.length_cons]; omega
      | succ depth =>
        have later := inductionHypothesis closed
        simp only [List.length_cons] at later ⊢
        omega
    · rename_i notStart notStop
      split at closed
      · rename_i reads
        exact absurd reads notStart
      · rename_i reads
        exact absurd reads notStop
      · have later := inductionHypothesis closed
        simp only [List.length_cons] at later ⊢
        omega

/-- A closed body and its closing bracket fit into the text they came from. -/
theorem collect_length {rest : List Char} (closed : (collect rest).closed = true) :
    (collect rest).inner.length + 1 ≤ rest.length := by
  have fits := collectFrom_length closed
  simpa only [collect, List.length_nil, Nat.zero_add] using fits

end Bracket
end LoopTape
