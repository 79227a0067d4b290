import Mathlib.Logic.Relation
import LoopTape.Proofs.Machine.Resuming

namespace LoopTape
namespace Machine

/-!
# The states that a run comes through

A run that has not failed yet has come through a row of states, each of them one
step behind the one before.  A run that never ends has such states too, and this
is how to speak about it.  From any of them the run ends as it does from the
first.

The number of counted instructions never falls along the row.  It rises by one at
each instruction that is carried out, so of the states with the same number only
one stands on an instruction: the last of them, which is about to count again.
-/

/-- One step of a run that has met no fault. -/
def Moves (machine : Machine) (state next : State) : Prop :=
  Exists fun more => machine.step state = ⟨next, .ok more⟩

/-- The states that the run from a state comes through, this state included. -/
def Visits (machine : Machine) : State -> State -> Prop := Relation.ReflTransGen machine.Moves

/-- The character under the counter is an instruction. -/
def OnCode (source : List Char) (state : State) : Prop :=
  Exists fun character => source[state.counter]? = some character ∧
    Instruction.isCode character = true

variable {machine : Machine} {state next reached : State} {finish : Finish}

/-! ## Steps and ends -/

theorem moves_unique (machine : Machine) : Relator.RightUnique machine.Moves := by
  rintro state first second ⟨_, toFirst⟩ ⟨_, toSecond⟩
  rw [toFirst] at toSecond
  exact congrArg Turn.state toSecond

theorem part_eq_iff_moves :
    (machine.step state).part = ⟨next, none⟩ ↔ machine.Moves state next := by
  unfold Moves Turn.part
  rcases machine.step state with ⟨reached, fault | more⟩
  · constructor
    · intro impossible
      cases impossible
    · rintro ⟨_, impossible⟩
      cases impossible
  · constructor
    · intro same
      cases same
      exact ⟨more, rfl⟩
    · rintro ⟨_, same⟩
      cases same
      rfl

/-- A run ends as it does from its next state. -/
theorem ends_iff_of_moves (moves : machine.Moves state next) :
    machine.Ends state finish ↔ machine.Ends next finish := by
  by_cases inside : state.counter < machine.source.length
  · rw [ends_inside_iff inside, part_eq_iff_moves.mpr moves]
    rfl
  · rcases moves with ⟨_, moved⟩
    rw [step_outside (Nat.le_of_not_lt inside)] at moved
    have same : state = next := congrArg Turn.state moved
    rw [same]

theorem ends_iff_of_visits (visits : machine.Visits state reached) :
    machine.Ends state finish ↔ machine.Ends reached finish := by
  induction visits with
  | refl => exact Iff.rfl
  | tail _ moves inductionHypothesis => exact inductionHypothesis.trans (ends_iff_of_moves moves)

/-! ## What a step counts -/

theorem steps_step_of_onCode (onCode : OnCode machine.source state)
    (allowed : budgetFault? machine.limit state.steps = none) :
    (machine.step state).state.steps = state.steps + 1 := by
  rcases onCode with ⟨character, found, code⟩
  rcases Option.isSome_iff_exists.mp code with ⟨instruction, reads⟩
  cases lands : landing machine.source instruction state.tape.cell state.counter with
  | error fault => rw [step_stranded found reads allowed lands]
  | ok target =>
      rw [step_landed found reads allowed lands]
      exact effect_steps instruction _

/-- A step that does not count an instruction leaves the number as it is. -/
theorem steps_step_cases (machine : Machine) (state : State) :
    (OnCode machine.source state ∧ budgetFault? machine.limit state.steps = none) ∨
      (machine.step state).state.steps = state.steps := by
  cases stepKind machine state with
  | outside past =>
      rw [step_outside past]
      exact Or.inr rfl
  | comment character found comment =>
      rw [step_comment found comment]
      exact Or.inr rfl
  | refused character instruction fault found reads refused =>
      rw [step_refused found reads refused]
      exact Or.inr rfl
  | stranded character instruction fault found reads allowed _ =>
      exact Or.inl ⟨⟨character, found, Instruction.isCode_of_ofChar? reads⟩, allowed⟩
  | landed character instruction target found reads allowed _ =>
      exact Or.inl ⟨⟨character, found, Instruction.isCode_of_ofChar? reads⟩, allowed⟩

theorem steps_le_step (machine : Machine) (state : State) :
    state.steps ≤ (machine.step state).state.steps := by
  rcases steps_step_cases machine state with ⟨onCode, allowed⟩ | same
  · rw [steps_step_of_onCode onCode allowed]
    exact Nat.le_succ _
  · exact Nat.le_of_eq same.symm

theorem steps_step_of_moves (moves : machine.Moves state next) :
    (machine.step state).state.steps = next.steps := by
  rcases moves with ⟨_, moved⟩
  rw [moved]

theorem Visits.steps_le (visits : machine.Visits state reached) : state.steps ≤ reached.steps := by
  induction visits with
  | refl => exact Nat.le_refl _
  | tail _ moves inductionHypothesis =>
      rw [← steps_step_of_moves moves]
      exact Nat.le_trans inductionHypothesis (steps_le_step _ _)

/-- A run ends with at least as many instructions as its first step has counted. -/
theorem Ends.step_steps_le (ends : machine.Ends state finish) :
    (machine.step state).state.steps ≤ finish.state.steps := by
  apply Ends.along _ ends
  intro state ends back
  by_cases inside : state.counter < machine.source.length
  · have after := (ends_inside_iff inside).mp ends
    rcases turned : machine.step state with ⟨next, fault | more⟩
    · rw [turned] at after
      rcases after with ⟨_, same⟩
      rw [← Option.some.inj same]
      exact Nat.le_refl _
    · have later := (back next inside (part_eq_iff_moves.mpr ⟨more, turned⟩)).2
      exact Nat.le_trans (steps_le_step machine next) later
  · have past := Nat.le_of_not_lt inside
    have stays : finish = ⟨state, none⟩ := (ends_outside_iff past).mp ends
    exact Nat.le_of_eq (by rw [stays, step_outside past])

/-! ## One state for each number -/

theorem Visits.eq_of_steps_eq (visits : machine.Visits state reached)
    (onCode : OnCode machine.source state)
    (allowed : budgetFault? machine.limit state.steps = none)
    (same : reached.steps = state.steps) : reached = state := by
  rcases Relation.ReflTransGen.cases_head visits with here | ⟨next, moves, later⟩
  · exact here.symm
  · have counted := steps_step_of_onCode onCode allowed
    rw [steps_step_of_moves moves] at counted
    have more : next.steps ≤ reached.steps := Visits.steps_le later
    omega

/-- Of the states with the same number of counted instructions a run stands on an
instruction in one only. -/
theorem Visits.unique_onCode {first second : State} (toFirst : machine.Visits state first)
    (toSecond : machine.Visits state second) (firstCode : OnCode machine.source first)
    (secondCode : OnCode machine.source second)
    (allowed : budgetFault? machine.limit first.steps = none)
    (same : first.steps = second.steps) : first = second := by
  rcases Relation.ReflTransGen.total_of_right_unique (moves_unique machine) toFirst toSecond with
    onward | back
  · exact (Visits.eq_of_steps_eq onward firstCode allowed same.symm).symm
  · rw [same] at allowed
    exact Visits.eq_of_steps_eq back secondCode allowed same

end Machine
end LoopTape
