import LoopTape.Machine.Step

namespace LoopTape
namespace Machine

/-!
# Runs

A run repeats steps until one of them says that the text is at its end, or
fails.  Some runs never end, so a run is given a number of steps to take and
answers with nothing when that number was not enough.

A budget makes every run finite.  Between two counted instructions a run can
only pass comments, each of which moves the counter forward by one.  A run
that may count `n` more instructions over a text with `m` comments is
therefore over after `(n + 1) * (m + 1)` steps, and this allowance is enough
for it.  Only a run without a budget has to be told how patient to be.
-/

/-- The state at the end of a run, and the fault that ended it if one did. -/
structure Finish where
  state : State
  fault : Option Fault

/-- Run for at most the given number of steps. -/
def runFor (machine : Machine) : Nat -> State -> Option Finish
  | 0, _ => none
  | allowed + 1, state =>
    match machine.step state with
    | ⟨next, .ok true⟩ => runFor machine allowed next
    | ⟨final, .ok false⟩ => some ⟨final, none⟩
    | ⟨final, .error fault⟩ => some ⟨final, some fault⟩

/-- The number of comments in the text. -/
def commentCount (machine : Machine) : Nat :=
  machine.source.countP (fun character => !Instruction.isCode character)

/-- A number of steps after which a run with a budget is over. -/
def allowance? (machine : Machine) (state : State) : Option Nat :=
  machine.limit.map (fun limit => (limit - state.steps + 1) * (machine.commentCount + 1))

/-- Run to the end.  A run without a budget takes at most `patience` steps. -/
def run (machine : Machine) (patience : Nat) (state : State) : Option Finish :=
  machine.runFor ((machine.allowance? state).getD patience) state

/-- Run a fresh machine to the end. -/
def execute (machine : Machine) (patience : Nat) : Option Finish :=
  machine.run patience .fresh

/-- A finished run stays the same when it is allowed more steps. -/
theorem runFor_mono {machine : Machine} {allowed larger : Nat} {state : State} {finish : Finish}
    (finished : machine.runFor allowed state = some finish) (enough : allowed ≤ larger) :
    machine.runFor larger state = some finish := by
  induction allowed generalizing larger state with
  | zero => cases finished
  | succ allowed inductionHypothesis =>
    obtain ⟨larger, rfl⟩ : ∃ smaller, larger = smaller + 1 := ⟨larger - 1, by omega⟩
    unfold runFor at finished ⊢
    split at finished
    · exact inductionHypothesis finished (by omega)
    · exact finished
    · exact finished

end Machine
end LoopTape
