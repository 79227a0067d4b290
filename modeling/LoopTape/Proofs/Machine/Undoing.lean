import LoopTape.Proofs.Machine.Abreast

namespace LoopTape
namespace Machine

open LoopTape.Bracket

/-!
# Instructions that undo one another

Two instructions that undo one another may be put into a text wherever one likes, inside
of loops and next to brackets.  They are counted each time they are carried out, and
change nothing else.

The run of the text with the two instructions is abreast of that of the text with two
comments in their place, and comments change nothing.  What remains is to find the end
of the run in the first text from that in the text without anything in the place.  A run
comes to its end behind its text or on a bracket, and neither is in the gap.
-/

variable {first second : Instruction} {front back : List Char} {state : State}

/-- A run that fails does so in its last step. -/
theorem Ends.exists_last_step {machine : Machine} {finish : Finish} {fault : Fault}
    (ends : machine.Ends state finish) (failed : finish.fault = some fault) :
    Exists fun last => machine.step last = ⟨finish.state, .error fault⟩ := by
  apply Ends.along _ ends
  intro state ends back
  by_cases inside : state.counter < machine.source.length
  · have after := (ends_inside_iff inside).mp ends
    have answers := step_eq_answer_part inside
    rcases moved : (machine.step state).part with ⟨next, _ | other⟩
    · exact (back next inside moved).2
    · rw [moved] at after answers
      rcases after with ⟨_, same⟩
      rw [← Option.some.inj same] at failed ⊢
      cases failed
      exact ⟨state, answers⟩
  · rw [(ends_outside_iff (Nat.le_of_not_lt inside)).mp ends] at failed
    cases failed

/-- A run that blames a bracket has come to a stop there. -/
theorem Ends.counter_of_unmatched {machine : Machine} {finish : Finish} {position : Nat}
    (ends : machine.Ends state finish) (failed : finish.fault = some (.unmatched position)) :
    finish.state.counter = position ∧
      (machine.source[position]? = some '[' ∨ machine.source[position]? = some ']') := by
  rcases ends.exists_last_step failed with ⟨last, step⟩
  rcases jumpDue_of_unmatched step with ⟨here, due⟩
  rw [(stranded_of_unmatched step).1, here]
  rcases due with ⟨opens, _⟩ | ⟨closes, _⟩
  · exact ⟨rfl, Or.inl opens⟩
  · exact ⟨rfl, Or.inr closes⟩

theorem Ends.apart_from_blanks {part : Finish} (ends : (withBlanks front back).Ends state part) :
    part.state.counter < front.length ∨ front.length + 2 ≤ part.state.counter := by
  rcases failed : part.fault with _ | position | ⟨steps, limit⟩
  · have length : (withBlanks front back).source.length = front.length + 2 + back.length :=
      length_between front back ' ' ' '
    have behind := ends.behind failed
    rw [length] at behind
    exact Or.inr (Nat.le_trans (Nat.le_add_right _ back.length) behind)
  · rcases ends.counter_of_unmatched failed with ⟨here, bracket⟩
    rw [← here] at bracket
    apply Decidable.byContradiction
    intro inside
    rw [not_or, Nat.not_lt, Nat.not_le] at inside
    rcases bracket with opens | closes
    · exact weightless_blanks.start_not_mem (mem_gap_of_getElem? inside.1 inside.2 opens)
    · exact weightless_blanks.stop_not_mem (mem_gap_of_getElem? inside.1 inside.2 closes)
  · exact absurd failed ends.not_overBudget

/-- The second finish is the first one around two instructions that have been put into the
text and have been carried out some times. -/
structure Finish.Widened (place times : Nat) (plain widened : Finish) : Prop where
  tape : widened.state.tape = plain.state.tape
  counter : widened.state.counter = aroundGap place 2 plain.state.counter
  printed : widened.state.printed = plain.state.printed
  steps : widened.state.steps = plain.state.steps + 2 * times
  fault : widened.fault = plain.fault.map (View.relocate (aroundGap place 2)).fault

theorem widened_of_ends {part : Finish} (ends : (withBlanks front back).Ends state part)
    (times : Nat) :
    Finish.Widened front.length times
      ((View.relocate (closedUp front.length 2)).finish part) (part.paying (2 * times)) := by
  have around := aroundGap_closedUp ends.apart_from_blanks
  refine ⟨rfl, around.symm, rfl, rfl, ?_⟩
  rcases failed : part.fault with _ | position | ⟨steps, limit⟩
  · simp only [Finish.paying, View.finish, failed, Option.map_none]
  · rw [(ends.counter_of_unmatched failed).1] at around
    simp only [Finish.paying, View.finish, View.relocate, failed, Option.map_some, around]
  · simp only [Finish.paying, View.finish, View.relocate, failed, Option.map_some]

theorem ends_withBlanks_iff (front back : List Char) (finish : Finish) :
    (Machine.mk (front ++ back) none).Ends .fresh finish ↔
      Exists fun part => (withBlanks front back).Ends .fresh part ∧
        finish = (View.relocate (closedUp front.length 2)).finish part := by
  have covers : forall position, (front ++ [' ', ' '] ++ back).length ≤ position ->
      (front ++ back).length ≤ closedUp front.length 2 position := by
    intro position outside
    simp only [List.length_append, List.length_cons, List.length_nil] at outside ⊢
    rw [closedUp]
    omega
  have relocation := relocation_gap (fun _ member => not_isCode_of_mem_blanks member) front back
  have alike := ends_relocate_iff_of_covers relocation covers none .fresh finish
  have fresh : (View.relocate (closedUp front.length 2)).state .fresh = .fresh := by
    simp only [View.relocate, State.fresh, closedUp_front (Nat.zero_le _)]
  rwa [show [' ', ' '].length = 2 from rfl, fresh] at alike

/-- Two machines without budgets return, fail and go on for ever alike, and what the second
finishes with is what the first finishes with, around two instructions at a place of its
text, which are counted as often as the first of them has been carried out. -/
structure RunsWidened (place : Nat) (plain widened : Machine) : Prop where
  finishes : forall patience finish, widened.execute patience = some finish ->
    Exists fun whole => (Exists fun patience => plain.execute patience = some whole) ∧
      whole.Widened place (widened.timesAt place patience .fresh) finish
  answers : forall patience whole, plain.execute patience = some whole ->
    Exists fun patience => Exists fun finish => widened.execute patience = some finish ∧
      whole.Widened place (widened.timesAt place patience .fresh) finish
  goesOn : (forall patience, widened.execute patience = none) ↔
    forall patience, plain.execute patience = none

theorem Inverse.execute_eq (inverse : Inverse first second) (front back : List Char)
    (patience : Nat) :
    (withPair first second front back).execute patience =
      ((withBlanks front back).runFor patience .fresh).map (Finish.paying
        (2 * (withPair first second front back).timesAt front.length patience .fresh)) := by
  have abreast : Abreast second front.length 0 .fresh .fresh :=
    .outside (Nat.succ_ne_zero front.length).symm rfl
  have runs := @Abreast.runFor _ _ front back _ _ _ inverse patience abreast
  rwa [Nat.zero_add] at runs

theorem Inverse.runsWidened (inverse : Inverse first second) (front back : List Char) :
    RunsWidened front.length ⟨front ++ back, none⟩ (withPair first second front back) := by
  constructor
  · intro patience finish finished
    rw [inverse.execute_eq] at finished
    rcases Option.map_eq_some_iff.mp finished with ⟨part, ended, same⟩
    refine ⟨_, (ends_withBlanks_iff front back _).mpr ⟨part, ⟨patience, ended⟩, rfl⟩, ?_⟩
    rw [← same]
    exact widened_of_ends ⟨patience, ended⟩ _
  · intro patience whole finished
    rcases (ends_withBlanks_iff front back whole).mp ⟨patience, finished⟩ with
      ⟨part, ⟨allowed, ended⟩, same⟩
    have finishes := inverse.execute_eq front back allowed
    rw [ended, Option.map_some] at finishes
    refine ⟨allowed, _, finishes, ?_⟩
    rw [same]
    exact widened_of_ends ⟨allowed, ended⟩ _
  · simp only [inverse.execute_eq, Option.map_eq_none_iff]
    rw [forall_execute_eq_none_iff]
    constructor
    · intro never whole ends
      rcases (ends_withBlanks_iff front back whole).mp ends with ⟨_, ⟨allowed, ended⟩, _⟩
      rw [never allowed] at ended
      cases ended
    · intro never patience
      cases ended : (withBlanks front back).runFor patience .fresh with
      | none => rfl
      | some part =>
          exact absurd ((ends_withBlanks_iff front back _).mpr ⟨part, ⟨patience, ended⟩, rfl⟩)
            (never _)

theorem exists_inverse_of_mem {pair : List Char}
    (member : pair ∈ [['+', '-'], ['-', '+'], ['<', '>'], ['>', '<']]) :
    Exists fun first => Exists fun second =>
      Inverse first second ∧ pair = [first.toChar, second.toChar] := by
  simp only [List.mem_cons, List.not_mem_nil, or_false] at member
  rcases member with rfl | rfl | rfl | rfl
  · exact ⟨_, _, .countUp, rfl⟩
  · exact ⟨_, _, .countDown, rfl⟩
  · exact ⟨_, _, .moveDown, rfl⟩
  · exact ⟨_, _, .moveUp, rfl⟩

/-- Wherever two characters that undo one another are put into a text, the text is run as
it was without them.  What it ends with is on the same tape, with the same characters
printed, and a bracket that is blamed is the same bracket.  Only the count is larger, by
two each time the first of the two is carried out. -/
theorem undone_characters_are_only_counted (source : List Char) {place : Nat}
    (inside : place ≤ source.length) {pair : List Char}
    (inverse : pair ∈ [['+', '-'], ['-', '+'], ['<', '>'], ['>', '<']]) :
    RunsWidened place ⟨source, none⟩
      ⟨source.take place ++ pair ++ source.drop place, none⟩ := by
  rcases exists_inverse_of_mem inverse with ⟨first, second, undoes, rfl⟩
  have runs := undoes.runsWidened (source.take place) (source.drop place)
  rwa [List.take_append_drop, List.length_take_of_le inside] at runs

/-- Two characters in front of a stray closing bracket are carried out once, and the bracket
is blamed two positions further behind. -/
theorem undone_in_front_of_stray_bracket :
    1 ≤ ['+', ']'].length ∧ ['-', '+'] ∈ [['+', '-'], ['-', '+'], ['<', '>'], ['>', '<']] ∧
      (Machine.mk ['+', '-', '+', ']'] none).execute 4 =
        some ⟨⟨Tape.blank.increment, 3, #[], 4⟩, some (.unmatched 3)⟩ ∧
      Exists fun whole =>
        (Exists fun patience => (Machine.mk ['+', ']'] none).execute patience = some whole) ∧
          whole.Widened 1 1 ⟨⟨Tape.blank.increment, 3, #[], 4⟩, some (.unmatched 3)⟩ := by
  have inverse : ['-', '+'] ∈ [['+', '-'], ['-', '+'], ['<', '>'], ['>', '<']] := by decide
  have first : (Machine.mk ['+', '-', '+', ']'] none).step .fresh =
      ⟨⟨Tape.blank.increment, 1, #[], 1⟩, .ok true⟩ := rfl
  have second : (Machine.mk ['+', '-', '+', ']'] none).step ⟨Tape.blank.increment, 1, #[], 1⟩ =
      ⟨⟨Tape.blank, 2, #[], 2⟩, .ok true⟩ := by
    rw [← Tape.decrement_increment Tape.blank]
    rfl
  have third : (Machine.mk ['+', '-', '+', ']'] none).step ⟨Tape.blank, 2, #[], 2⟩ =
      ⟨⟨Tape.blank.increment, 3, #[], 3⟩, .ok true⟩ := rfl
  have lost : landing ['+', '-', '+', ']'] .loopStop Tape.blank.increment.cell 3 =
      .error (.unmatched 3) := by
    rw [blank_increment_cell]
    rfl
  have fourth : (Machine.mk ['+', '-', '+', ']'] none).step ⟨Tape.blank.increment, 3, #[], 3⟩ =
      ⟨⟨Tape.blank.increment, 3, #[], 4⟩, .error (.unmatched 3)⟩ :=
    @step_stranded ⟨['+', '-', '+', ']'], none⟩ ⟨_, 3, _, _⟩ ']' .loopStop rfl rfl rfl _ lost
  have finished : (Machine.mk ['+', '-', '+', ']'] none).execute 4 =
      some ⟨⟨Tape.blank.increment, 3, #[], 4⟩, some (.unmatched 3)⟩ := by
    change (Machine.mk ['+', '-', '+', ']'] none).runFor 4 .fresh = _
    simp only [runFor, first, second, third, fourth]
  have once : (Machine.mk ['+', '-', '+', ']'] none).timesAt 1 4 .fresh = 1 := by
    simp only [timesAt, first, second, third, fourth]
    rfl
  have runs := @undone_characters_are_only_counted ['+', ']'] 1 (by decide) _ inverse
  have widened := runs.finishes 4 _ finished
  rw [show (Machine.mk (['+', ']'].take 1 ++ ['-', '+'] ++ ['+', ']'].drop 1) none) =
    ⟨['+', '-', '+', ']'], none⟩ from rfl, once] at widened
  exact ⟨by decide, inverse, finished, widened⟩

end Machine
end LoopTape
