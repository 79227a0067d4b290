import LoopTape.Instruction
import LoopTape.Text.Index

namespace LoopTape
namespace Bracket

/-!
# Balance scans

The partner of a bracket is found by walking over the text and keeping a
balance.  Walking upward an opening bracket counts one and a closing bracket
counts minus one; walking downward the signs are exchanged.  The walk ends at
the first character after which the balance is zero.

The scans do not ask that the walk start on a bracket.  A walk that starts on
any other character has balance zero after that character and ends at once.
A walk upward that starts on a closing bracket first goes below zero.
-/

/-- How much a character adds to the balance of a walk upward. -/
def opening (character : Char) : Int :=
  match Instruction.ofChar? character with
  | some .loopStart => 1
  | some .loopStop => -1
  | _ => 0

/-- How much a character adds to the balance of a walk downward. -/
def closing (character : Char) : Int :=
  match Instruction.ofChar? character with
  | some .loopStop => 1
  | some .loopStart => -1
  | _ => 0

/-- What the characters of a text add up to. -/
def tally (weight : Char -> Int) : List Char -> Int
  | [] => 0
  | character :: rest => weight character + tally weight rest

/-- The balance of a text: its opening brackets less its closing brackets. -/
def balance (text : List Char) : Int := tally opening text

/-- How many characters a walk passes before the one at which the level,
changed by the weight of each character met, is zero again.  The walk has
already passed `passed` characters. -/
def settleFrom (weight : Char -> Int) (level : Int) (passed : Nat) : List Char -> Option Nat
  | [] => none
  | character :: rest =>
    if level + weight character = 0 then some passed
    else settleFrom weight (level + weight character) (passed + 1) rest

/-- How many characters a walk passes before the one that balances it. -/
def settle (weight : Char -> Int) (walk : List Char) : Option Nat := settleFrom weight 0 0 walk

/-- The index at which a walk upward from `start` is balanced, if it ever is. -/
def scanForward (text : List Char) (start : Int) : Except Text.IndexFault (Option Int) :=
  (Text.upward text start).map (fun walk =>
    (settle opening walk).map (fun passed : Nat => start + (passed : Int)))

/-- The index at which a walk downward from `start` is balanced, if it ever is. -/
def scanBackward (text : List Char) (start : Int) : Except Text.IndexFault (Option Int) :=
  (Text.downward text start).map (fun walk =>
    (settle closing walk).map (fun passed : Nat => start - (passed : Int)))

/-! ## The partners of brackets

Inside the text no walk is out of range, and the scans become functions on
positions.  A running machine jumps with these. -/

/-- The position of the closing bracket that ends the loop opened at `start`. -/
def loopEnd? (text : List Char) (start : Nat) : Option Nat :=
  (settle opening (text.drop start)).map (fun passed => start + passed)

/-- The position of the opening bracket that starts the loop closed at `stop`. -/
def loopBegin? (text : List Char) (stop : Nat) : Option Nat :=
  (settle closing (text.take (stop + 1)).reverse).map (fun passed => stop - passed)

/-- From a position at or past the front a walk upward is never out of range,
so the scan answers, and its answer is the position of the loop's end. -/
theorem scanForward_natCast (text : List Char) (start : Nat) :
    scanForward text start = .ok ((loopEnd? text start).map (fun stop : Nat => (stop : Int))) := by
  unfold scanForward loopEnd? Text.upward
  rw [if_pos (Int.natCast_nonneg start), Int.toNat_natCast]
  cases settled : settle opening (text.drop start) <;> simp [Except.map, settled]

/-- A balanced walk ends on one of its own characters. -/
theorem settleFrom_lt {weight : Char -> Int} {level : Int} {passed count : Nat}
    {walk : List Char} (settled : settleFrom weight level passed walk = some count) :
    count < passed + walk.length := by
  induction walk generalizing level passed with
  | nil => cases settled
  | cons character rest inductionHypothesis =>
    unfold settleFrom at settled
    split at settled
    · cases settled
      simp only [List.length_cons]
      omega
    · have later := inductionHypothesis settled
      simp only [List.length_cons]
      omega

/-- Inside the text a walk downward passes no more characters than stand
before its start, so the scan's answer is the position of the loop's start. -/
theorem scanBackward_natCast (text : List Char) (stop : Nat) (inside : stop < text.length) :
    scanBackward text stop = .ok ((loopBegin? text stop).map (fun start : Nat => (start : Int))) := by
  unfold scanBackward loopBegin? Text.downward
  rw [if_neg (by omega), if_pos (by omega), Int.toNat_natCast]
  cases settled : settle closing (text.take (stop + 1)).reverse with
  | none => simp [Except.map, settled]
  | some passed =>
    have bound := settleFrom_lt settled
    simp only [List.length_reverse, List.length_take] at bound
    simp only [Except.map, settled, Option.map_some]
    have within : passed ≤ stop := by omega
    rw [Int.ofNat_sub within]

end Bracket
end LoopTape
