import LoopTape.Proofs.Bracket.Joining
import LoopTape.Proofs.Machine.Relocating
import LoopTape.Proofs.Machine.Visiting
import LoopTape.Proofs.Tape.Turning

namespace LoopTape
namespace Machine

open LoopTape.Bracket

/-!
# Runs on turned tapes

A machine never asks which cell it stands on, only what the cell holds.  A run
that starts on a turned tape is therefore the same run with its tape turned at
every moment, jumps and faults included.  If instructions had been counted before
it, and the budget is larger by as many, they are counted at every moment too.

Instructions that only move the pointer turn the blank tape.  Written in front
of a text, in any number, they change nothing about its run but the place on the
circle where it happens, the place in the text, and the count.
-/

variable {symmetry : Tape.Symmetry} {paid : Nat} {source : List Char} {limit : Option Nat}
  {state : State}

/-- A budget that allows more instructions. -/
def raised (paid : Nat) (limit : Option Nat) : Option Nat := limit.map (fun budget => budget + paid)

/-- The same state and the same fault on a tape that has been carried elsewhere, when
more instructions have been counted. -/
def View.carry (symmetry : Tape.Symmetry) (paid : Nat) : View where
  state state := { state with tape := symmetry.carry state.tape, steps := state.steps + paid }
  fault
    | .unmatched position => .unmatched position
    | .overBudget steps limit => .overBudget (steps + paid) (limit + paid)

/-! ## The same run elsewhere on the tape -/

/-- A raised budget refuses when the budget refused. -/
theorem budgetFault?_raised (symmetry : Tape.Symmetry) (paid : Nat) (limit : Option Nat)
    (steps : Nat) :
    budgetFault? (raised paid limit) (steps + paid) =
      (budgetFault? limit steps).map (View.carry symmetry paid).fault := by
  cases limit with
  | none => rfl
  | some budget =>
      simp only [raised, Option.map_some, budgetFault?, Nat.add_le_add_iff_right]
      by_cases used : budget ≤ steps
      · simp only [if_pos used, Option.map_some, View.carry]
      · simp only [if_neg used, Option.map_none]

/-- What an instruction does, it does wherever the tape has been carried. -/
theorem effect_carry (instruction : Instruction) (state : State) :
    effect instruction ((View.carry symmetry paid).state state) =
      (View.carry symmetry paid).state (effect instruction state) := by
  cases instruction with
  | increment => simp only [effect, View.carry, Tape.increment, symmetry.modify]
  | decrement => simp only [effect, View.carry, Tape.decrement, symmetry.modify]
  | left => simp only [effect, View.carry, symmetry.moveLeft]
  | right => simp only [effect, View.carry, symmetry.moveRight]
  | print => simp only [effect, View.carry, symmetry.cell]
  | loopStart => rfl
  | loopStop => rfl
  | input => rfl

theorem carry_counted (symmetry : Tape.Symmetry) (paid : Nat) (state : State) :
    { (View.carry symmetry paid).state state with steps := state.steps + paid + 1 } =
      (View.carry symmetry paid).state { state with steps := state.steps + 1 } := by
  simp only [View.carry, Nat.add_right_comm]

/-- Each step appears elsewhere on the tape. -/
theorem shown_carry (symmetry : Tape.Symmetry) (paid : Nat)
    (inside : state.counter < source.length) :
    Shown ⟨source, limit⟩ ⟨source, raised paid limit⟩ (View.carry symmetry paid) state := by
  refine .openly inside ?_
  have budget := budgetFault?_raised symmetry paid limit state.steps
  cases stepKind ⟨source, limit⟩ state with
  | outside past => exact absurd inside (Nat.not_lt_of_le past)
  | comment character found comment =>
      rw [step_comment found comment,
        @step_comment ⟨source, raised paid limit⟩ ((View.carry symmetry paid).state state) _ found
          comment]
      rfl
  | refused character instruction fault found reads refused =>
      dsimp only at refused
      rw [refused] at budget
      rw [step_refused found reads refused,
        @step_refused ⟨source, raised paid limit⟩ ((View.carry symmetry paid).state state) _ _ found
          reads _ budget]
      rfl
  | stranded character instruction fault found reads allowed stranded =>
      dsimp only at allowed
      rw [allowed] at budget
      have lost := stranded
      rw [← symmetry.cell] at lost
      have counted : (Machine.mk source (raised paid limit)).step
          ((View.carry symmetry paid).state state) =
            ⟨{ (View.carry symmetry paid).state state with steps := state.steps + paid + 1 },
              .error fault⟩ :=
        @step_stranded ⟨source, raised paid limit⟩ ((View.carry symmetry paid).state state) _ _ found
          reads budget _ lost
      rw [step_stranded found reads allowed stranded, counted, carry_counted]
      cases fault with
      | unmatched position => rfl
      | overBudget steps budget => exact absurd stranded landing_ne_overBudget
  | landed character instruction next found reads allowed landed =>
      dsimp only at allowed
      rw [allowed] at budget
      have lands := landed
      rw [← symmetry.cell] at lands
      have acted : (Machine.mk source (raised paid limit)).step
          ((View.carry symmetry paid).state state) =
            advance ⟨source, raised paid limit⟩ (effect instruction
              { (View.carry symmetry paid).state state with steps := state.steps + paid + 1 }) next :=
        @step_landed ⟨source, raised paid limit⟩ ((View.carry symmetry paid).state state) _ _ found
          reads budget _ lands
      rw [step_landed found reads allowed landed, acted, carry_counted, effect_carry]
      rfl

theorem ends_carry_iff (symmetry : Tape.Symmetry) (paid : Nat) (source : List Char)
    (limit : Option Nat) (state : State) (finish : Finish) :
    (Machine.mk source (raised paid limit)).Ends ((View.carry symmetry paid).state state) finish ↔
      Exists fun part => (Machine.mk source limit).Ends state part ∧
        finish = (View.carry symmetry paid).finish part :=
  ends_view_iff_of_covers (fun _ inside => shown_carry symmetry paid inside)
    (fun _ outside => outside) state finish

/-! ## Moves in front of a text -/

/-- The instructions that only move the pointer, with how far up they move it. -/
inductive Moving : Instruction -> Int -> Prop where
  | right : Moving .right 1
  | left : Moving .left (-1)

variable {move : Instruction} {unit : Int} {count : Nat}

theorem Moving.landing (moving : Moving move unit) (source : List Char) (cell : UInt8)
    (position : Nat) : landing source move cell position = .ok (position + 1) := by
  cases moving <;> rfl

/-- A move over the blank tape. -/
theorem Moving.effect (moving : Moving move unit) (shift : Int) (counter : Nat)
    (printed : Array UInt8) (steps : Nat) :
    effect move ⟨.blankAt shift, counter, printed, steps⟩ =
      ⟨.blankAt (shift + unit), counter, printed, steps⟩ := by
  cases moving with
  | right => simp only [Machine.effect, Tape.blankAt_moveRight]
  | left => simp only [Machine.effect, Tape.blankAt_moveLeft]

/-- The moves leave no loop open. -/
theorem Moving.terminated (moving : Moving move unit) (count : Nat) :
    Terminated (List.replicate count move.toChar) := by
  intro start
  rw [List.drop_replicate, balance_eq_count_sub_count]
  cases moving <;> simp [List.count_replicate, Instruction.toChar]

theorem raised_allows (limit : Option Nat) {done : Nat} (within : done < count) :
    budgetFault? (raised count limit) done = none := by
  apply (budgetFault?_eq_none_iff _ _).mpr
  intro budget larger
  rcases Option.map_eq_some_iff.mp larger with ⟨_, _, same⟩
  omega

/-- A text behind moves is reached through all of them, one turn after the other. -/
theorem Moving.visits (moving : Moving move unit) (source : List Char) (limit : Option Nat)
    {done : Nat} (within : done ≤ count) :
    (Machine.mk (List.replicate count move.toChar ++ source) (raised count limit)).Visits .fresh
      ⟨.blankAt (done * unit), done, #[], done⟩ := by
  induction done with
  | zero =>
      rw [Int.natCast_zero, Int.zero_mul, Tape.blankAt_zero]
      exact .refl
  | succ done inductionHypothesis =>
      have found : (List.replicate count move.toChar ++ source)[done]? = some move.toChar := by
        rw [List.getElem?_append_left (by rw [List.length_replicate]; exact within),
          List.getElem?_replicate_of_lt within]
      have moved := @step_landed ⟨List.replicate count move.toChar ++ source, raised count limit⟩
        ⟨.blankAt (done * unit), done, #[], done⟩ _ _ found (Instruction.ofChar?_toChar move)
        (raised_allows limit within) _ (moving.landing _ _ _)
      rw [moving.effect, advance] at moved
      rw [Int.natCast_succ, Int.add_mul, Int.one_mul]
      exact .tail (inductionHypothesis (Nat.le_of_succ_le within)) ⟨_, moved⟩

/-! ## Displaced runs -/

/-- The same fault further behind in the text, when more instructions are allowed
and have been counted. -/
def Fault.displaced (count : Nat) : Fault -> Fault
  | .unmatched position => .unmatched (position + count)
  | .overBudget steps limit => .overBudget (steps + count) (limit + count)

/-- One finish is the other on a tape turned by `shift`, further behind in the text
and with more instructions counted, both by `count`. -/
structure Finish.Displaced (shift : Int) (count : Nat) (plain displaced : Finish) : Prop where
  tape : Tape.Turned shift plain.state.tape displaced.state.tape
  counter : displaced.state.counter = plain.state.counter + count
  printed : displaced.state.printed = plain.state.printed
  steps : displaced.state.steps = plain.state.steps + count
  fault : displaced.fault = plain.fault.map (Fault.displaced count)

/-- The finish that is carried elsewhere and put behind `count` characters. -/
def Finish.carriedBehind (symmetry : Tape.Symmetry) (count : Nat) (plain : Finish) : Finish :=
  (View.relocate (fun position => count + position)).finish
    ((View.carry symmetry count).finish plain)

theorem carriedBehind_eq (symmetry : Tape.Symmetry) (count : Nat) (plain : Finish) :
    plain.carriedBehind symmetry count =
      ⟨⟨symmetry.carry plain.state.tape, plain.state.counter + count, plain.state.printed,
        plain.state.steps + count⟩, plain.fault.map (Fault.displaced count)⟩ := by
  rcases plain with ⟨state, _ | fault⟩
  · simp only [Finish.carriedBehind, View.finish, View.relocate, View.carry, Nat.add_comm count,
      Option.map_none]
  · cases fault <;>
      simp only [Finish.carriedBehind, View.finish, View.relocate, View.carry, Nat.add_comm count,
        Option.map_some, Fault.displaced]

/-- Finishes are displaced when one is the other carried behind, by a symmetry that
turns tapes. -/
theorem displaced_iff {shift : Int}
    (turns : forall tape other, Tape.Turned shift tape other ↔ other = symmetry.carry tape)
    (count : Nat) (plain displaced : Finish) :
    plain.Displaced shift count displaced ↔ displaced = plain.carriedBehind symmetry count := by
  rw [carriedBehind_eq]
  constructor
  · intro relation
    rcases displaced with ⟨⟨tape, counter, printed, steps⟩, fault⟩
    have sameTape := (turns _ _).mp relation.tape
    have sameCounter := relation.counter
    have samePrinted := relation.printed
    have sameSteps := relation.steps
    have sameFault := relation.fault
    dsimp only at sameTape sameCounter samePrinted sameSteps sameFault
    rw [sameTape, sameCounter, samePrinted, sameSteps, sameFault]
  · rintro rfl
    exact ⟨(turns _ _).mpr rfl, rfl, rfl, rfl, rfl⟩

/-- The run of a text behind moves is the run of the text, carried behind. -/
theorem Moving.ends_iff (moving : Moving move unit) (count : Nat)
    (turns : forall tape other,
      Tape.Turned (count * unit) tape other ↔ other = symmetry.carry tape)
    (source : List Char) (limit : Option Nat) (finish : Finish) :
    (Machine.mk (List.replicate count move.toChar ++ source) (raised count limit)).Ends .fresh
        finish ↔
      Exists fun plain => (Machine.mk source limit).Ends .fresh plain ∧
        finish = plain.carriedBehind symmetry count := by
  have behind := ends_relocate_iff_of_covers
    (relocation_back (moving.terminated count) source)
    (fun position outside => by rw [List.length_append]; omega) (raised count limit)
    ((View.carry symmetry count).state .fresh) finish
  have reached : (View.relocate (fun position => count + position)).state
      ((View.carry symmetry count).state .fresh) =
        ⟨.blankAt (count * unit), count, #[], count⟩ := by
    simp only [View.relocate, View.carry, State.fresh, Nat.add_zero, Nat.zero_add,
      (turns _ _).mp (Tape.turned_blank _)]
  rw [List.length_replicate, reached] at behind
  rw [ends_iff_of_visits (moving.visits source limit (Nat.le_refl count)), behind]
  simp only [ends_carry_iff]
  constructor
  · rintro ⟨_, ⟨plain, ends, rfl⟩, same⟩
    exact ⟨plain, ends, same⟩
  · rintro ⟨plain, ends, same⟩
    exact ⟨_, ⟨plain, ends, rfl⟩, same⟩

/-- Two machines return, fail and go on for ever alike, and what the second finishes
with is what the first finishes with, displaced. -/
structure RunsDisplaced (shift : Int) (count : Nat) (plain displaced : Machine) : Prop where
  finishes : forall finish,
    (Exists fun patience => displaced.execute patience = some finish) ↔
      Exists fun whole => (Exists fun patience => plain.execute patience = some whole) ∧
        whole.Displaced shift count finish
  goesOn : (forall patience, displaced.execute patience = none) ↔
    forall patience, plain.execute patience = none

theorem Moving.runsDisplaced (moving : Moving move unit) (count : Nat) (source : List Char)
    (limit : Option Nat) :
    RunsDisplaced (count * unit) count ⟨source, limit⟩
      ⟨List.replicate count move.toChar ++ source, raised count limit⟩ := by
  -- From here on only what the symmetry does is known, and not how it turns the cells.
  rcases Tape.exists_symmetry (count * unit) with ⟨symmetry, turns⟩
  have alike := moving.ends_iff count turns source limit
  constructor
  · simp only [exists_execute_iff_ends, displaced_iff turns]
    exact alike
  · simp only [forall_execute_eq_none_iff]
    constructor
    · intro never plain ends
      exact never _ ((alike _).mpr ⟨plain, ends, rfl⟩)
    · intro never finish ends
      rcases (alike finish).mp ends with ⟨plain, plainEnds, _⟩
      exact never plain plainEnds

/-- Moves in front of a text, however many and in either direction, change nothing
about its run but where on the circle it happens.  With a budget that allows the
moves as well, both texts return, fail and go on for ever alike, and what is left is
the same with every cell and the pointer further along, every position further
behind, and every count larger by the number of moves. -/
theorem moves_in_front_turn_the_tape (source : List Char) (limit : Option Nat) (count : Nat) :
    RunsDisplaced count count ⟨source, limit⟩
        ⟨List.replicate count '>' ++ source, limit.map (fun budget => budget + count)⟩ ∧
      RunsDisplaced (-count) count ⟨source, limit⟩
        ⟨List.replicate count '<' ++ source, limit.map (fun budget => budget + count)⟩ := by
  have right := Moving.right.runsDisplaced count source limit
  have left := Moving.left.runsDisplaced count source limit
  rw [Int.mul_one] at right
  rw [Int.mul_neg_one] at left
  exact ⟨right, left⟩

end Machine
end LoopTape
