import LoopTape.Bracket.Scan
import LoopTape.Machine.Basic

namespace LoopTape
namespace Machine

/-!
# One step

A step carries out the character under the counter.  Past the end of the text
there is nothing to do and nothing changes.  A comment only moves the counter
and is free.  An instruction first asks whether the budget allows it, then is
counted, and then acts.

The order of these three matters.  When the budget is used up the state is
left exactly as it was.  When a jump has no target the instruction has already
been counted, so the state that is left differs from the one before in its
number of steps and in nothing else.

An instruction acts in two independent ways.  Its `effect` is what it does to
the tape and to the printed bytes.  Its `landing` is where the counter goes.
Brackets have no effect, and all other instructions land on the next character.
-/

/-- What a step left and how it ended: with a fault, or with the answer to the
question whether there is more text to carry out. -/
structure Turn where
  state : State
  outcome : Except Fault Bool

/-- What an instruction does to the tape and to the printed bytes. -/
def effect (instruction : Instruction) (state : State) : State :=
  match instruction with
  | .increment => { state with tape := state.tape.increment }
  | .decrement => { state with tape := state.tape.decrement }
  | .left => { state with tape := state.tape.moveLeft }
  | .right => { state with tape := state.tape.moveRight }
  | .print =>
    let byte := state.tape.cell
    { state with printed := state.printed.push byte }
  | .loopStart | .loopStop | .input => state

/-- Where the counter goes from `position` when an instruction there finds the
given cell.  A jump lands just past the partner of its bracket. -/
def landing (source : List Char) (instruction : Instruction) (cell : UInt8) (position : Nat) :
    Except Fault Nat :=
  match instruction with
  | .loopStart =>
    if cell = 0 then
      match Bracket.loopEnd? source position with
      | some stop => .ok (stop + 1)
      | none => .error (.unmatched position)
    else .ok (position + 1)
  | .loopStop =>
    if cell = 0 then .ok (position + 1)
    else
      match Bracket.loopBegin? source position with
      | some start => .ok (start + 1)
      | none => .error (.unmatched position)
  | _ => .ok (position + 1)

/-- The fault of the next instruction when the budget is used up. -/
def budgetFault? (limit : Option Nat) (steps : Nat) : Option Fault :=
  match limit with
  | some limit => if limit ≤ steps then some (.overBudget steps limit) else none
  | none => none

/-- Move the counter and say whether it still stands on a character. -/
def advance (machine : Machine) (state : State) (counter : Nat) : Turn :=
  ⟨{ state with counter := counter }, .ok (decide (counter < machine.source.length))⟩

/-- Carry out the character under the counter. -/
def step (machine : Machine) (state : State) : Turn :=
  match machine.source[state.counter]? with
  | none => ⟨state, .ok false⟩
  | some character =>
    match Instruction.ofChar? character with
    | none =>
      let next := state.counter + 1
      machine.advance state next
    | some instruction =>
      match budgetFault? machine.limit state.steps with
      | some fault => ⟨state, .error fault⟩
      | none =>
        match landing machine.source instruction state.tape.cell state.counter with
        | .error fault => ⟨{ state with steps := state.steps + 1 }, .error fault⟩
        | .ok next => machine.advance (effect instruction { state with steps := state.steps + 1 }) next

end Machine
end LoopTape
