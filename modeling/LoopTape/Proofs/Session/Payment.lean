import LoopTape.Proofs.Machine.Stepping
import LoopTape.Proofs.Session.Reaching
import LoopTape.Proofs.Tape.Distance

namespace LoopTape
namespace Machine

/-!
# Steps pay for effects

Whatever can be seen of a run has been paid for.  A printed byte, a cell moved by
one away from zero and a pointer moved by one away from the first cell cost an
instruction each, and an instruction does one of these at most.  A state therefore
never differs from the fresh one by more than it has counted.

Nothing is paid back.  An instruction that undoes another is counted like any
other, and so is a bracket, which has no effect at all.
-/

/-- How much a state differs from the fresh one. -/
def State.outlay (state : State) : Nat :=
  state.output.length + state.tape.spread + state.tape.distance

/-- The counted instructions pay for all that a state differs from the fresh one, and so
for each byte and each cell that is not zero. -/
structure Paid (state : State) : Prop where
  outlay : state.outlay ≤ state.steps
  marks : state.tape.nonzero.length + state.output.length + state.tape.distance ≤ state.steps

theorem paid_of_outlay {state : State} (outlay : state.outlay ≤ state.steps) : Paid state where
  outlay := outlay
  marks := by
    have marked := state.tape.length_nonzero_le_spread
    unfold State.outlay at outlay
    omega

theorem length_output (state : State) : state.output.length = state.printed.size := by
  rw [State.output, List.length_map, Array.length_toList]

theorem outlay_fresh : State.fresh.outlay = 0 := by
  have tape : State.fresh.tape = Tape.blank := rfl
  have printed : State.fresh.printed.size = 0 := rfl
  rw [State.outlay, length_output, tape, printed, Tape.spread_blank, Tape.distance_blank]

/-- An instruction has one effect at most, and this one is worth a step. -/
theorem outlay_effect_le (instruction : Instruction) (state : State) :
    (effect instruction state).outlay ≤ state.outlay + 1 := by
  simp only [State.outlay, length_output]
  cases instruction with
  | increment =>
      have spread := state.tape.spread_increment_le
      have distance : state.tape.increment.distance = state.tape.distance :=
        Tape.distance_modify _ _
      simp only [effect, distance]
      omega
  | decrement =>
      have spread := state.tape.spread_decrement_le
      have distance : state.tape.decrement.distance = state.tape.distance :=
        Tape.distance_modify _ _
      simp only [effect, distance]
      omega
  | left =>
      have distance := state.tape.distance_moveLeft_le
      simp only [effect, Tape.spread_moveLeft]
      omega
  | right =>
      have distance := state.tape.distance_moveRight_le
      simp only [effect, Tape.spread_moveRight]
      omega
  | print =>
      simp only [effect, Array.size_push]
      omega
  | loopStart => exact Nat.le_succ _
  | loopStop => exact Nat.le_succ _
  | input => exact Nat.le_succ _

/-- A step counts before it acts, and what fails counts without acting. -/
theorem outlay_step_le {machine : Machine} {state : State} (paid : state.outlay ≤ state.steps) :
    (machine.step state).state.outlay ≤ (machine.step state).state.steps := by
  cases stepKind machine state with
  | outside past =>
      rw [step_outside past]
      exact paid
  | comment character found comment =>
      rw [step_comment found comment]
      exact paid
  | refused character instruction fault found reads refused =>
      rw [step_refused found reads refused]
      exact paid
  | stranded character instruction fault found reads allowed stranded =>
      rw [step_stranded found reads allowed stranded]
      exact Nat.le_succ_of_le paid
  | landed character instruction next found reads allowed landed =>
      rw [step_landed found reads allowed landed]
      have acted := outlay_effect_le instruction { state with steps := state.steps + 1 }
      have counted := effect_steps instruction { state with steps := state.steps + 1 }
      -- Where the counter goes is neither paid for nor counted.
      change (effect instruction { state with steps := state.steps + 1 }).outlay ≤
        (effect instruction { state with steps := state.steps + 1 }).steps
      rw [counted]
      exact Nat.le_trans acted (Nat.succ_le_succ paid)

namespace Session

/-- Every state of a session is paid for, the kept ones included. -/
theorem steps_pay_for_effects (machine : Machine) (session : Session)
    (reached : Reached machine session) :
    Paid session.state ∧ forall snapshot, snapshot ∈ session.snapshots -> Paid snapshot := by
  rcases reached.keeps (motive := fun state => state.outlay ≤ state.steps)
    (Nat.le_of_eq outlay_fresh) (fun _ paid => outlay_step_le paid) with ⟨paid, snapshots⟩
  exact ⟨paid_of_outlay paid, fun snapshot kept => paid_of_outlay (snapshots snapshot kept)⟩

/-- Three instructions pay for a pointer on the last cell, for a cell of 255 and for a
byte, each of which is one away from nothing. -/
theorem payment_for_last_cell :
    Exists fun session => Reached ⟨['<', '-', '.'], none⟩ session ∧
      session.state =
        ⟨Tape.blank.moveLeft.decrement, 3, #[Tape.blank.moveLeft.decrement.cell], 3⟩ ∧
      session.snapshots = #[session.state] ∧ Paid session.state := by
  have moved : (Machine.mk ['<', '-', '.'] none).step .fresh =
      ⟨⟨Tape.blank.moveLeft, 1, #[], 1⟩, .ok true⟩ := rfl
  have counted : (Machine.mk ['<', '-', '.'] none).step ⟨Tape.blank.moveLeft, 1, #[], 1⟩ =
      ⟨⟨Tape.blank.moveLeft.decrement, 2, #[], 2⟩, .ok true⟩ := rfl
  have printed : (Machine.mk ['<', '-', '.'] none).step
      ⟨Tape.blank.moveLeft.decrement, 2, #[], 2⟩ =
        ⟨⟨Tape.blank.moveLeft.decrement, 3, #[Tape.blank.moveLeft.decrement.cell], 3⟩,
          .ok false⟩ := rfl
  have taken : (Session.start ⟨['<', '-', '.'], none⟩).perform 0 (.step 3) =
      some (⟨.answers [true, true, false], none⟩, ⟨⟨['<', '-', '.'], none⟩,
        ⟨Tape.blank.moveLeft.decrement, 3, #[Tape.blank.moveLeft.decrement.cell], 3⟩, #[]⟩) := by
    simp only [Session.start, perform, takeSteps, moved, counted, printed]
  have reached := (Reached.start.perform taken).perform (perform_snapshot _ 0)
  rcases steps_pay_for_effects _ _ reached with ⟨paid, _⟩
  exact ⟨_, reached, rfl, rfl, paid⟩

end Session
end Machine
end LoopTape
