import LoopTape.Record.Event
import LoopTape.Report.Failure

namespace LoopTape
namespace Record

/-!
# Records of runs

A record sums up a run without failing itself.  The record of a run that came
to the end of its text holds the tape, the pointer and all that was printed.
The record of a run that failed holds none of these, not even what had been
printed before the failure, but the message of the failure.  Both hold the
number of instructions counted.
-/

/-- The record of a run. -/
structure Evaluation where
  pointer : Option (Fin Tape.size)
  memory : Option (Vector UInt8 Tape.size)
  output : List Char
  errorText : List Char
  steps : Nat
  deriving DecidableEq

/-- Whether the run came to the end of its text. -/
def Evaluation.ok (record : Evaluation) : Bool := record.errorText.isEmpty

/-- The record of how a run of a text finished. -/
def Evaluation.ofFinish (source : List Char) (finish : Machine.Finish) : Evaluation :=
  match finish.fault with
  | none =>
    { pointer := some finish.state.tape.pointer
      memory := some finish.state.tape.cells
      output := finish.state.output
      errorText := []
      steps := finish.state.steps }
  | some fault =>
    { pointer := none
      memory := none
      output := []
      errorText := (Report.Failure.ofFault source fault).message
      steps := finish.state.steps }

/-- Run a fresh machine and sum up.  There is no record of a run without a
budget that takes more than `patience` steps. -/
def evaluate (machine : Machine) (patience : Nat) : Option Evaluation :=
  (machine.execute patience).map (Evaluation.ofFinish machine.source)

/-- What is noted while a run is made and summed up. -/
def evaluationEvents (machine : Machine) (finish : Machine.Finish) : List Event :=
  runningEvents machine finish ++
    match finish.fault with
    | none => []
    | some fault => [.evaluationFailed (Report.Failure.ofFault machine.source fault).message]

end Record
end LoopTape
