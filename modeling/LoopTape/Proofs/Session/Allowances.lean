import LoopTape.Proofs.Machine.Ending
import LoopTape.Proofs.Session.Ranges

namespace LoopTape
namespace Machine

/-!
# Runs within a budget are over in time

The text alone does not bound a run, since every loop that is closed takes the
counter back.  What bounds it is the budget together with the text.  A call for a
step that neither fails nor ends the run counts an instruction, of which the budget
leaves only so many, or it passes a comment.  Passing a comment is free, but the
counter moves forward, and at the latest behind the last comment an instruction has
to be counted before any comment is met again.

The comments in the body of a loop are passed once more in every round.  This is why
the number of comments multiplies the instructions that are left, and does not merely
add to them.
-/

/-- A run from a state is over with its last call for a step, and it takes this many
calls to come there.  The last call ends the text or fails, and every call before it
answers that more text follows. -/
inductive RunsIn (machine : Machine) : State -> Nat -> Finish -> Prop where
  | ended {state final : State} (ended : machine.step state = ⟨final, .ok false⟩) :
      RunsIn machine state 1 ⟨final, none⟩
  | failed {state final : State} {fault : Fault}
      (failed : machine.step state = ⟨final, .error fault⟩) :
      RunsIn machine state 1 ⟨final, some fault⟩
  | onward {state next : State} {calls : Nat} {finish : Finish}
      (moved : machine.step state = ⟨next, .ok true⟩) (later : RunsIn machine next calls finish) :
      RunsIn machine state (calls + 1) finish

/-- What a single call for a step can come to. -/
inductive Progress (machine : Machine) (state : State) : Prop where
  | fails (left : State) (fault : Fault) (failed : machine.step state = ⟨left, .error fault⟩)
  | ends (left : State) (ended : machine.step state = ⟨left, .ok false⟩)
  | counts (next : State) (moved : machine.step state = ⟨next, .ok true⟩)
      (counted : next.steps = state.steps + 1)
  /-- All that changes is the counter, and it moves forward by one. -/
  | passes (moved : machine.step state = ⟨{ state with counter := state.counter + 1 }, .ok true⟩)

variable {machine : Machine} {state : State} {finish : Finish} {allowed calls : Nat}

/-! ## Counting the calls of a run -/

/-- A run that is over within the allowed number of calls takes a number of its own. -/
theorem exists_runsIn_of_runFor (finished : machine.runFor allowed state = some finish) :
    Exists fun calls => calls ≤ allowed ∧ machine.RunsIn state calls finish := by
  induction allowed generalizing state with
  | zero => cases finished
  | succ allowed inductionHypothesis =>
      rcases moved : machine.step state with ⟨next, fault | _ | _⟩
      · simp only [runFor, moved] at finished
        cases finished
        exact ⟨1, Nat.succ_le_succ (Nat.zero_le allowed), .failed moved⟩
      · simp only [runFor, moved] at finished
        cases finished
        exact ⟨1, Nat.succ_le_succ (Nat.zero_le allowed), .ended moved⟩
      · simp only [runFor, moved] at finished
        rcases inductionHypothesis finished with ⟨calls, within, later⟩
        exact ⟨calls + 1, Nat.succ_le_succ within, .onward moved later⟩

theorem RunsIn.runFor_eq (runs : machine.RunsIn state calls finish) :
    machine.runFor calls state = some finish := by
  induction runs with
  | ended ended => simp only [runFor, ended]
  | failed failed => simp only [runFor, failed]
  | onward moved _ inductionHypothesis =>
      simp only [runFor, moved]
      exact inductionHypothesis

/-! ## What a call comes to -/

theorem progress (machine : Machine) (state : State) : Progress machine state := by
  cases stepKind machine state with
  | outside past => exact .ends _ (step_outside past)
  | comment character found comment =>
      have moved := step_comment found comment
      by_cases inside : state.counter + 1 < machine.source.length
      · rw [advance, decide_eq_true inside] at moved
        exact .passes moved
      · rw [advance, decide_eq_false inside] at moved
        exact .ends _ moved
  | refused character instruction fault found reads refused =>
      exact .fails _ fault (step_refused found reads refused)
  | stranded character instruction fault found reads allowed stranded =>
      exact .fails _ fault (step_stranded found reads allowed stranded)
  | landed character instruction target found reads allowed landed =>
      have moved := step_landed found reads allowed landed
      by_cases inside : target < machine.source.length
      · rw [advance, decide_eq_true inside] at moved
        exact .counts _ moved (effect_steps instruction _)
      · rw [advance, decide_eq_false inside] at moved
        exact .ends _ moved

namespace Session

/-- Within a budget every run of a session is over, by coming to the end of the text or
by failing, and the number of calls for a step that it takes is bounded by the
instructions that the budget leaves and the comments of the text.  No call on its way
does anything but fail, end the run, count an instruction or pass a comment. -/
theorem budgeted_runs_are_over_in_time (source : List Char) (limit : Nat) (session : Session)
    (reached : Reached ⟨source, some limit⟩ session) :
    session.state.steps ≤ limit ∧
    (Exists fun calls => Exists fun finish =>
      calls ≤ (limit - session.state.steps + 1) *
        (source.countP (fun character => !Instruction.isCode character) + 1) ∧
      RunsIn ⟨source, some limit⟩ session.state calls finish ∧
      forall patience, Exists fun answer =>
        session.perform patience .run = some (answer, { session with state := finish.state }) ∧
          answer.fault = finish.fault) ∧
    forall passed,
      Progress ⟨source, some limit⟩ ((Machine.mk source (some limit)).after passed session.state) := by
  have within : session.state.steps ≤ limit :=
    (reached.keeps (motive := fun state => state.steps ≤ limit) (Nat.zero_le limit)
      (fun _ before => steps_step_le rfl before)).1
  refine ⟨within, ?_, fun passed => progress _ _⟩
  rcases @runFor_allowance ⟨source, some limit⟩ limit rfl session.state with ⟨finish, finished⟩
  rcases exists_runsIn_of_runFor finished with ⟨calls, few, runs⟩
  refine ⟨calls, finish, few, runs, fun patience => ?_⟩
  have ran : session.machine.run patience session.state = some finish := by
    rw [reached.machine_eq]
    exact finished
  rw [perform, ran]
  exact ⟨_, rfl, rfl⟩

/-- One instruction is left, and the comment in the loop is passed in front of it and
once more behind it: no call of the bound is spared. -/
theorem allowance_of_commented_loop :
    Exists fun session => Reached ⟨['+', '[', 'x', ']'], some 3⟩ session ∧
      session.state = ⟨Tape.blank.increment, 2, #[], 2⟩ ∧
      RunsIn ⟨['+', '[', 'x', ']'], some 3⟩ session.state ((3 - 2 + 1) * (1 + 1))
        ⟨⟨Tape.blank.increment, 3, #[], 3⟩, some (.overBudget 3 3)⟩ ∧
      Exists fun calls => Exists fun finish =>
        calls ≤ (3 - session.state.steps + 1) *
          ((['+', '[', 'x', ']'] : List Char).countP
            (fun character => !Instruction.isCode character) + 1) ∧
        RunsIn ⟨['+', '[', 'x', ']'], some 3⟩ session.state calls finish ∧
        finish = ⟨⟨Tape.blank.increment, 3, #[], 3⟩, some (.overBudget 3 3)⟩ := by
  have stays : landing ['+', '[', 'x', ']'] .loopStart Tape.blank.increment.cell 1 = .ok 2 := by
    rw [blank_increment_cell]
    rfl
  have returns : landing ['+', '[', 'x', ']'] .loopStop Tape.blank.increment.cell 3 = .ok 2 := by
    rw [blank_increment_cell]
    rfl
  have first : (Machine.mk ['+', '[', 'x', ']'] (some 3)).step .fresh =
      ⟨⟨Tape.blank.increment, 1, #[], 1⟩, .ok true⟩ := rfl
  have second : (Machine.mk ['+', '[', 'x', ']'] (some 3)).step ⟨Tape.blank.increment, 1, #[], 1⟩ =
      ⟨⟨Tape.blank.increment, 2, #[], 2⟩, .ok true⟩ :=
    @step_landed ⟨['+', '[', 'x', ']'], some 3⟩ ⟨_, 1, _, _⟩ '[' .loopStart rfl rfl rfl _ stays
  have third : (Machine.mk ['+', '[', 'x', ']'] (some 3)).step ⟨Tape.blank.increment, 2, #[], 2⟩ =
      ⟨⟨Tape.blank.increment, 3, #[], 2⟩, .ok true⟩ := rfl
  have fourth : (Machine.mk ['+', '[', 'x', ']'] (some 3)).step ⟨Tape.blank.increment, 3, #[], 2⟩ =
      ⟨⟨Tape.blank.increment, 2, #[], 3⟩, .ok true⟩ :=
    @step_landed ⟨['+', '[', 'x', ']'], some 3⟩ ⟨_, 3, _, _⟩ ']' .loopStop rfl rfl rfl _ returns
  have fifth : (Machine.mk ['+', '[', 'x', ']'] (some 3)).step ⟨Tape.blank.increment, 2, #[], 3⟩ =
      ⟨⟨Tape.blank.increment, 3, #[], 3⟩, .ok true⟩ := rfl
  have sixth : (Machine.mk ['+', '[', 'x', ']'] (some 3)).step ⟨Tape.blank.increment, 3, #[], 3⟩ =
      ⟨⟨Tape.blank.increment, 3, #[], 3⟩, .error (.overBudget 3 3)⟩ := rfl
  have taken : (Session.start ⟨['+', '[', 'x', ']'], some 3⟩).perform 0 (.step 2) =
      some (⟨.answers [true, true], none⟩,
        ⟨⟨['+', '[', 'x', ']'], some 3⟩, ⟨Tape.blank.increment, 2, #[], 2⟩, #[]⟩) := by
    simp only [Session.start, perform, takeSteps, first, second]
  have reached := Reached.start.perform taken
  have tight : RunsIn ⟨['+', '[', 'x', ']'], some 3⟩ ⟨Tape.blank.increment, 2, #[], 2⟩ 4
      ⟨⟨Tape.blank.increment, 3, #[], 3⟩, some (.overBudget 3 3)⟩ :=
    .onward third (.onward fourth (.onward fifth (.failed sixth)))
  rcases budgeted_runs_are_over_in_time _ _ _ reached with ⟨_, ⟨calls, finish, few, runs, _⟩, _⟩
  exact ⟨_, reached, rfl, tight, calls, finish, few, runs,
    Ends.unique ⟨calls, runs.runFor_eq⟩ ⟨4, tight.runFor_eq⟩⟩

end Session
end Machine
end LoopTape
