import LoopTape.Machine.Step

namespace LoopTape
namespace Machine

/-!
# The kinds of a step

A step is one of five things.  Past the end of the text nothing happens.  A
comment moves the counter.  An instruction is refused because the budget is used
up, or it is counted and has nowhere to go, or it is counted, acts and lands.

Each kind has a lemma that gives the whole turn, and `stepKind` says that no
other kinds exist.  What holds after every step is proved from these, without
looking into the definition of a step again.
-/

variable {machine : Machine} {state : State} {character : Char} {instruction : Instruction}

theorem step_outside (outside : machine.source.length ≤ state.counter) :
    machine.step state = ⟨state, .ok false⟩ := by
  unfold step
  rw [List.getElem?_eq_none outside]

theorem step_comment (found : machine.source[state.counter]? = some character)
    (comment : Instruction.ofChar? character = none) :
    machine.step state = machine.advance state (state.counter + 1) := by
  unfold step
  simp only [found, comment]

theorem step_refused (found : machine.source[state.counter]? = some character)
    (reads : Instruction.ofChar? character = some instruction) {fault : Fault}
    (refused : budgetFault? machine.limit state.steps = some fault) :
    machine.step state = ⟨state, .error fault⟩ := by
  unfold step
  simp only [found, reads, refused]

theorem step_stranded (found : machine.source[state.counter]? = some character)
    (reads : Instruction.ofChar? character = some instruction)
    (allowed : budgetFault? machine.limit state.steps = none) {fault : Fault}
    (stranded : landing machine.source instruction state.tape.cell state.counter = .error fault) :
    machine.step state = ⟨{ state with steps := state.steps + 1 }, .error fault⟩ := by
  unfold step
  simp only [found, reads, allowed, stranded]

theorem step_landed (found : machine.source[state.counter]? = some character)
    (reads : Instruction.ofChar? character = some instruction)
    (allowed : budgetFault? machine.limit state.steps = none) {next : Nat}
    (landed : landing machine.source instruction state.tape.cell state.counter = .ok next) :
    machine.step state =
      machine.advance (effect instruction { state with steps := state.steps + 1 }) next := by
  unfold step
  simp only [found, reads, allowed, landed]

/-- The five kinds, each with what makes a step one of that kind. -/
inductive StepKind (machine : Machine) (state : State) : Prop where
  | outside (past : machine.source.length ≤ state.counter)
  | comment (character : Char) (found : machine.source[state.counter]? = some character)
      (comment : Instruction.ofChar? character = none)
  | refused (character : Char) (instruction : Instruction) (fault : Fault)
      (found : machine.source[state.counter]? = some character)
      (reads : Instruction.ofChar? character = some instruction)
      (refused : budgetFault? machine.limit state.steps = some fault)
  | stranded (character : Char) (instruction : Instruction) (fault : Fault)
      (found : machine.source[state.counter]? = some character)
      (reads : Instruction.ofChar? character = some instruction)
      (allowed : budgetFault? machine.limit state.steps = none)
      (stranded : landing machine.source instruction state.tape.cell state.counter = .error fault)
  | landed (character : Char) (instruction : Instruction) (next : Nat)
      (found : machine.source[state.counter]? = some character)
      (reads : Instruction.ofChar? character = some instruction)
      (allowed : budgetFault? machine.limit state.steps = none)
      (landed : landing machine.source instruction state.tape.cell state.counter = .ok next)

theorem stepKind (machine : Machine) (state : State) : StepKind machine state := by
  by_cases inside : state.counter < machine.source.length
  · have found := List.getElem?_eq_getElem inside
    cases reads : Instruction.ofChar? machine.source[state.counter] with
    | none => exact .comment _ found reads
    | some instruction =>
        cases budget : budgetFault? machine.limit state.steps with
        | some fault => exact .refused _ instruction fault found reads budget
        | none =>
            cases lands : landing machine.source instruction state.tape.cell state.counter with
            | error fault => exact .stranded _ instruction fault found reads budget lands
            | ok next => exact .landed _ instruction next found reads budget lands
  · exact .outside (Nat.le_of_not_lt inside)

theorem effect_steps (instruction : Instruction) (state : State) :
    (effect instruction state).steps = state.steps := by
  cases instruction <;> rfl

/-- What has no target is a bracket without a partner. -/
theorem landing_ne_overBudget {source : List Char} {cell : UInt8} {position steps limit : Nat} :
    landing source instruction cell position ≠ .error (.overBudget steps limit) := by
  intro stranded
  unfold landing at stranded
  split at stranded
  · split at stranded
    · split at stranded <;> cases stranded
    · cases stranded
  · split at stranded
    · cases stranded
    · split at stranded <;> cases stranded
  · cases stranded

theorem fresh_cell : State.fresh.tape.cell = 0 := by
  simp only [State.fresh, Tape.blank, Tape.cell, Fin.getElem_fin, Vector.getElem_replicate]

theorem blank_increment_cell : Tape.blank.increment.cell = 1 := by
  rw [Tape.increment, Tape.cell_modify, show Tape.blank.cell = 0 from fresh_cell]
  rfl

/-- A budget refuses only when it is used up. -/
theorem budgetFault?_eq_none_iff (limit : Option Nat) (steps : Nat) :
    budgetFault? limit steps = none ↔ forall budget, limit = some budget -> steps < budget := by
  unfold budgetFault?
  cases limit with
  | none =>
      constructor
      · intro _ budget impossible
        cases impossible
      · intro _
        rfl
  | some budget =>
      dsimp only
      by_cases used : budget ≤ steps
      · rw [if_pos used]
        constructor
        · intro impossible
          cases impossible
        · intro within
          exact absurd (within budget rfl) (Nat.not_lt_of_le used)
      · rw [if_neg used]
        constructor
        · intro _ other same
          cases same
          exact Nat.lt_of_not_le used
        · intro _
          rfl

theorem budgetFault?_eq_some_iff (limit : Option Nat) (steps : Nat) (fault : Fault) :
    budgetFault? limit steps = some fault ↔
      Exists fun budget => limit = some budget ∧ budget ≤ steps ∧
        fault = .overBudget steps budget := by
  unfold budgetFault?
  cases limit with
  | none =>
      constructor
      · intro impossible
        cases impossible
      · rintro ⟨budget, impossible, _⟩
        cases impossible
  | some budget =>
      dsimp only
      by_cases used : budget ≤ steps
      · rw [if_pos used]
        constructor
        · intro same
          exact ⟨budget, rfl, used, (Option.some.inj same).symm⟩
        · rintro ⟨other, same, _, refused⟩
          rw [refused, Option.some.inj same]
      · rw [if_neg used]
        constructor
        · intro impossible
          cases impossible
        · rintro ⟨other, same, spent, _⟩
          rw [← Option.some.inj same] at spent
          exact absurd spent used

/-! ## What a failed step tells -/

variable {left : State}

/-- A step that finds the budget used up leaves everything as it was. -/
theorem refused_of_overBudget {steps limit : Nat}
    (failed : machine.step state = ⟨left, .error (.overBudget steps limit)⟩) :
    left = state ∧ budgetFault? machine.limit state.steps = some (.overBudget steps limit) := by
  cases stepKind machine state with
  | outside past =>
      rw [step_outside past] at failed
      cases failed
  | comment character found comment =>
      rw [step_comment found comment] at failed
      cases failed
  | refused character instruction fault found reads refused =>
      rw [step_refused found reads refused] at failed
      cases failed
      exact ⟨rfl, refused⟩
  | stranded character instruction fault found reads allowed stranded =>
      rw [step_stranded found reads allowed stranded] at failed
      cases failed
      exact absurd stranded landing_ne_overBudget
  | landed character instruction next found reads allowed landed =>
      rw [step_landed found reads allowed landed] at failed
      cases failed

/-- The counter stands on a bracket that has to jump and has no partner. -/
def Stranded (source : List Char) (position : Nat) (state : State) : Prop :=
  Exists fun character => Exists fun instruction =>
    source[state.counter]? = some character ∧ Instruction.ofChar? character = some instruction ∧
      landing source instruction state.tape.cell state.counter = .error (.unmatched position)

theorem Stranded.step {position : Nat} (stranded : Stranded machine.source position state)
    (allowed : budgetFault? machine.limit state.steps = none) :
    machine.step state = ⟨{ state with steps := state.steps + 1 }, .error (.unmatched position)⟩ := by
  rcases stranded with ⟨character, instruction, found, reads, lost⟩
  exact step_stranded found reads allowed lost

theorem Stranded.step_refused {position : Nat} (stranded : Stranded machine.source position state)
    {fault : Fault} (refused : budgetFault? machine.limit state.steps = some fault) :
    machine.step state = ⟨state, .error fault⟩ := by
  rcases stranded with ⟨character, instruction, found, reads, _⟩
  exact Machine.step_refused found reads refused

/-- A step that finds no partner counts its bracket and changes nothing else. -/
theorem stranded_of_unmatched {position : Nat}
    (failed : machine.step state = ⟨left, .error (.unmatched position)⟩) :
    left = { state with steps := state.steps + 1 } ∧ Stranded machine.source position state ∧
      budgetFault? machine.limit state.steps = none := by
  cases stepKind machine state with
  | outside past =>
      rw [step_outside past] at failed
      cases failed
  | comment character found comment =>
      rw [step_comment found comment] at failed
      cases failed
  | refused character instruction fault found reads refused =>
      rw [step_refused found reads refused] at failed
      cases failed
      rcases (budgetFault?_eq_some_iff _ _ _).mp refused with ⟨_, _, _, impossible⟩
      cases impossible
  | stranded character instruction fault found reads allowed stranded =>
      rw [step_stranded found reads allowed stranded] at failed
      cases failed
      exact ⟨rfl, ⟨character, instruction, found, reads, stranded⟩, allowed⟩
  | landed character instruction next found reads allowed landed =>
      rw [step_landed found reads allowed landed] at failed
      cases failed

end Machine
end LoopTape
