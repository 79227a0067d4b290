import LoopTape.Machine.Run
import LoopTape.Tree.Emission

namespace LoopTape
namespace Machine

/-!
# Runs of trees

A tree can be run without any jumps.  The nodes of a row are carried out one
after another.  A loop asks for its opening bracket once, and unless the cell
is zero then, it repeats its body followed by its closing bracket until the
closing bracket finds the cell to be zero.

No bracket is ever looked for here, since the tree knows where a loop ends.
The counter is kept all the same, for two reasons: a fault has to say where in
the text it happened, and a run of the tree can then be compared with a run of
the text in everything that a state holds.  When a node is reached the counter
is the position of its first character.
-/

/-- Ask the budget for one more instruction, and count it. -/
def charge (limit : Option Nat) (state : State) : Except Fault State :=
  match budgetFault? limit state.steps with
  | some fault => .error fault
  | none => .ok { state with steps := state.steps + 1 }

/-- Whether a bracket that finds the given cell would have to jump. -/
def jumps (instruction : Instruction) (cell : UInt8) : Bool :=
  match instruction with
  | .loopStart => cell == 0
  | .loopStop => cell != 0
  | _ => false

/-- Carry out a leaf.  A bracket that is a leaf has no partner, so it fails
when it would have to jump. -/
def runLeaf (limit : Option Nat) (text : List Char) (state : State) : Finish :=
  match Instruction.ofText? text with
  | none =>
    let next := state.counter + text.length
    ⟨{ state with counter := next }, none⟩
  | some instruction =>
    match charge limit state with
    | .error fault => ⟨state, some fault⟩
    | .ok counted =>
      if jumps instruction state.tape.cell then ⟨counted, some (.unmatched state.counter)⟩
      else
        let next := state.counter + 1
        ⟨{ effect instruction counted with counter := next }, none⟩

/-- Repeat a body and the closing bracket at `stop` until that finds the cell to
be zero.  There is no answer after the given number of rounds. -/
def runRounds (limit : Option Nat) (body : State -> Option Finish) (start stop : Nat) :
    Nat -> State -> Option Finish
  | 0, _ => none
  | rounds + 1, state =>
    match body { state with counter := start + 1 } with
    | none => none
    | some ⟨left, some fault⟩ => some ⟨left, some fault⟩
    | some ⟨left, none⟩ =>
      match charge limit left with
      | .error fault => some ⟨left, some fault⟩
      | .ok counted =>
        if counted.tape.cell = 0 then
          let next := stop + 1
          some ⟨{ counted with counter := next }, none⟩
        else runRounds limit body start stop rounds counted

/-- Run a row of nodes.  There is no answer when a loop takes more rounds than
are given. -/
def runTree (limit : Option Nat) (rounds : Nat) : Tree -> State -> Option Finish
  | .nil, state => some ⟨state, none⟩
  | .leaf text rest, state =>
    match runLeaf limit text state with
    | ⟨left, some fault⟩ => some ⟨left, some fault⟩
    | ⟨left, none⟩ => runTree limit rounds rest left
  | .loop body rest, state =>
    let start := state.counter
    let stop := start + 1 + body.text.length
    match charge limit state with
    | .error fault => some ⟨state, some fault⟩
    | .ok counted =>
      if counted.tape.cell = 0 then
        let next := stop + 1
        runTree limit rounds rest { counted with counter := next }
      else
        match runRounds limit (runTree limit rounds body) start stop rounds counted with
        | none => none
        | some ⟨left, some fault⟩ => some ⟨left, some fault⟩
        | some ⟨left, none⟩ => runTree limit rounds rest left

end Machine
end LoopTape
