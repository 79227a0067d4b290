import Mathlib.Data.Int.Bitwise
import LoopTape.Proofs.Machine.Jumps
import LoopTape.Proofs.Machine.Visiting
import LoopTape.Proofs.Session.Reaching

namespace LoopTape
namespace Machine

/-!
# The ranges of a state

Nothing in a session ever leaves its range.  Most of this is a matter of types:
there is no tape with another number of cells, no cell with more than eight bits
and no pointer beside the tape.  Two ranges have to be proved of each step.  The
counter stays inside the text or just behind it, because the partner of a bracket
is a character of the same text.  The number of counted instructions stays within
the budget, because the budget is asked before an instruction is counted, and a
bracket without a partner is counted once and not again.

A state in range is served in all that a step can ask for.  The cell and the
character are there, neither scan leaves the text, and a changed cell is the number
that masking leaves, with no bit lost in storing it.
-/

/-- All that a state holds is in range. -/
structure InRange (machine : Machine) (state : State) : Prop where
  cellCount : state.tape.cells.toList.length = 30000
  cells : forall cell, cell ∈ state.tape.cells.toList -> cell.toNat ≤ 255
  pointer : state.tape.pointer.val < 30000
  counter : state.counter ≤ machine.source.length
  output : forall character, character ∈ state.output -> character.toNat ≤ 255
  steps : forall budget, machine.limit = some budget -> state.steps ≤ budget

/-- All that a step looks up is found, and all that it writes fits into a cell. -/
structure Served (source : List Char) (state : State) : Prop where
  cell : state.tape.cells.toList[state.tape.pointer.val]? = some state.tape.cell
  character : state.counter < source.length ->
    Exists fun character => source[state.counter]? = some character
  upward : state.counter < source.length ->
    Exists fun stop => Bracket.scanForward source state.counter = .ok stop
  downward : state.counter < source.length ->
    Exists fun start => Bracket.scanBackward source state.counter = .ok start
  increment : ((effect .increment state).tape.cell.toNat : Int) =
    Int.land (state.tape.cell.toNat + 1) Tape.cellMask
  decrement : ((effect .decrement state).tape.cell.toNat : Int) =
    Int.land (state.tape.cell.toNat - 1) Tape.cellMask

/-! ## What the types give -/

/-- The number of a character is the one it was made from, or zero if no character
has that one. -/
theorem toNat_ofNat_le (number : Nat) : (Char.ofNat number).toNat ≤ number := by
  unfold Char.ofNat
  by_cases valid : number.isValidChar
  · rw [dif_pos valid]
    exact Nat.le_refl number
  · rw [dif_neg valid]
    exact Nat.zero_le number

theorem toNat_le_of_mem_output {state : State} {character : Char}
    (printed : character ∈ state.output) : character.toNat ≤ 255 := by
  rcases List.mem_map.mp printed with ⟨byte, _, same⟩
  rw [← same]
  exact Nat.le_trans (toNat_ofNat_le byte.toNat) (Nat.le_of_lt_succ byte.toNat_lt)

theorem land_cellMask (value : Nat) : Int.land value Tape.cellMask = (value % 256 : Nat) := by
  change ((value &&& 2 ^ 8 - 1 : Nat) : Int) = _
  rw [Nat.and_two_pow_sub_one_eq_mod]

theorem cell_increment (tape : Tape) :
    (tape.increment.cell.toNat : Int) = Int.land (tape.cell.toNat + 1) Tape.cellMask := by
  rw [Tape.increment, Tape.cell_modify, UInt8.toNat_add]
  exact (land_cellMask (tape.cell.toNat + 1)).symm

theorem cell_decrement (tape : Tape) :
    (tape.decrement.cell.toNat : Int) = Int.land (tape.cell.toNat - 1) Tape.cellMask := by
  rw [Tape.decrement, Tape.cell_modify, UInt8.toNat_sub]
  have small := tape.cell.toNat_lt
  cases value : tape.cell.toNat with
  | zero =>
      -- The number below zero is the one whose bits are all set.
      have allBits : ((255 : Nat) : Int) = Int.land (-1) 255 := by decide +kernel
      exact allBits
  | succ less =>
      rw [value] at small
      rw [Int.natCast_succ, Int.add_sub_cancel, land_cellMask]
      simp only [UInt8.toNat_one]
      omega

theorem served (source : List Char) (state : State) : Served source state where
  cell := by
    rw [List.getElem?_eq_getElem (by rw [Vector.length_toList]; exact state.tape.pointer.isLt)]
    rfl
  character inside := ⟨_, List.getElem?_eq_getElem inside⟩
  upward _ := ⟨_, Bracket.scanForward_natCast source state.counter⟩
  downward inside := ⟨_, Bracket.scanBackward_natCast source state.counter inside⟩
  increment := cell_increment state.tape
  decrement := cell_decrement state.tape

/-! ## What a step keeps -/

theorem inRange_of_counter_of_steps {machine : Machine} {state : State}
    (counter : state.counter ≤ machine.source.length)
    (steps : forall budget, machine.limit = some budget -> state.steps ≤ budget) :
    InRange machine state where
  cellCount := Vector.length_toList
  cells cell _ := Nat.le_of_lt_succ cell.toNat_lt
  pointer := state.tape.pointer.isLt
  counter := counter
  output _ printed := toNat_le_of_mem_output printed
  steps := steps

theorem inRange_fresh (machine : Machine) : InRange machine .fresh :=
  inRange_of_counter_of_steps (Nat.zero_le _) (fun _ _ => Nat.zero_le _)

/-- The budget is asked before an instruction is counted. -/
theorem steps_step_le {machine : Machine} {state : State} {budget : Nat}
    (limited : machine.limit = some budget) (within : state.steps ≤ budget) :
    (machine.step state).state.steps ≤ budget := by
  rcases steps_step_cases machine state with ⟨onCode, allowed⟩ | same
  · rw [steps_step_of_onCode onCode allowed]
    exact (budgetFault?_eq_none_iff _ _).mp allowed budget limited
  · rwa [same]

theorem InRange.step {machine : Machine} {state : State} (inRange : InRange machine state) :
    InRange machine (machine.step state).state :=
  inRange_of_counter_of_steps (step_counter_le inRange.counter)
    (fun budget limited => steps_step_le limited (inRange.steps budget limited))

/-- Within the budget, a step that is refused finds it used up to the last instruction. -/
theorem InRange.steps_eq_of_refused {machine : Machine} {state left : State} {steps limit : Nat}
    (inRange : InRange machine state)
    (refused : machine.step state = ⟨left, .error (.overBudget steps limit)⟩) :
    steps = limit ∧ machine.limit = some limit := by
  have spent := (refused_of_overBudget refused).2
  rcases (budgetFault?_eq_some_iff _ _ _).mp spent with ⟨budget, limited, used, same⟩
  cases same
  exact ⟨Nat.le_antisymm (inRange.steps limit limited) used, limited⟩

namespace Session

/-- Every state of a session is in range, the kept ones included.  Every state that
steps are taken from is served, those in the middle of a run included.  A budget
that is reported as used up was used up exactly. -/
theorem reached_sessions_stay_in_range (machine : Machine) (session : Session)
    (reached : Reached machine session) :
    InRange machine session.state ∧
    (forall snapshot, snapshot ∈ session.snapshots -> InRange machine snapshot) ∧
    (forall count, InRange machine (machine.after count session.state) ∧
      Served machine.source (machine.after count session.state)) ∧
    forall patience operation answer next steps limit,
      session.perform patience operation = some (answer, next) ->
        answer.fault = some (.overBudget steps limit) ->
          steps = limit ∧ machine.limit = some limit := by
  rcases reached.keeps (inRange_fresh machine) (fun _ inRange => inRange.step) with
    ⟨inRange, snapshots⟩
  have along := fun count =>
    after_keeps (fun _ inRange => InRange.step inRange) count inRange
  refine ⟨inRange, snapshots, fun count => ⟨along count, served _ _⟩, ?_⟩
  intro patience operation answer next steps limit answered exceeded
  rcases (performed answered).exists_step exceeded with ⟨fewer, refused⟩
  rw [reached.machine_eq] at refused
  exact (along fewer).steps_eq_of_refused refused

/-- A bracket without a partner uses up a budget that was left for it.  The state is
kept there, and a run is refused. -/
theorem ranges_behind_stray_bracket :
    Exists fun session => Reached ⟨['+', ']'], some 2⟩ session ∧
      session.state = ⟨Tape.blank.increment, 1, #[], 2⟩ ∧
      session.snapshots = #[session.state] ∧
      InRange ⟨['+', ']'], some 2⟩ session.state ∧
      session.perform 0 .run = some (⟨.nothing, some (.overBudget 2 2)⟩, session) ∧
      session.machine.limit = some 2 := by
  have reached := (Reached.start.perform (perform_stray_bracket 0)).perform (perform_snapshot _ 0)
  rcases reached_sessions_stay_in_range _ _ reached with ⟨inRange, _, _, spent⟩
  exact ⟨_, reached, rfl, rfl, inRange, rfl, (spent 0 .run _ _ 2 2 rfl rfl).2⟩

end Session
end Machine
end LoopTape
