import LoopTape.Machine.Structured
import LoopTape.Proofs.Machine.Resuming
import LoopTape.Proofs.Tree.Placement

namespace LoopTape
namespace Machine

/-!
# The pieces of a tree run

The run of a tree consists of leaves and of brackets.  The two brackets of a
loop do the same: when the cell is zero the counter goes past the loop, and
otherwise it goes to the beginning of the body.  Written in this way, the run of
a row and the rounds of a loop are parts joined one after another.

When the tree is placed at the counter, each leaf and each bracket is exactly
one step of the machine.
-/

open LoopTape.Bracket

/-- Ask the budget for one of the brackets of a loop, and pass it. -/
def passBracket (limit : Option Nat) (start stop : Nat) (state : State) : Finish :=
  match charge limit state with
  | .error fault => ⟨state, some fault⟩
  | .ok counted =>
    let target := if counted.tape.cell = 0 then stop + 1 else start + 1
    ⟨{ counted with counter := target }, none⟩

/-! ## Runs of trees as parts joined together -/

variable {limit : Option Nat} {rounds : Nat} {body rest : Tree} {state : State}

theorem runTree_leaf (characters : List Char) :
    runTree limit rounds (.leaf characters rest) state =
      (runLeaf limit characters state).andThen (runTree limit rounds rest) := by
  rw [runTree]
  rcases runLeaf limit characters state with ⟨left, _ | fault⟩
  · rfl
  · rfl

/-- A bracket and the two ways on from it, where going on into the loop does not
ask where the counter stands. -/
theorem passBracket_andThen (start stop : Nat) (past inside : State -> Option Finish)
    (ignores : forall state counter, inside { state with counter := counter } = inside state) :
    (passBracket limit start stop state).andThen (fun passed =>
        if passed.tape.cell = 0 then past passed else inside passed) =
      match charge limit state with
      | .error fault => some ⟨state, some fault⟩
      | .ok counted =>
        if counted.tape.cell = 0 then past { counted with counter := stop + 1 }
        else inside counted := by
  unfold passBracket
  cases charge limit state with
  | error fault => rfl
  | ok counted =>
      by_cases zero : counted.tape.cell = 0
      · simp only [Finish.andThen, zero, if_true]
      · simp only [Finish.andThen, zero, if_false, ignores]

theorem runRounds_counter (body : State -> Option Finish) (start stop : Nat) (state : State)
    (counter : Nat) :
    runRounds limit body start stop rounds { state with counter := counter } =
      runRounds limit body start stop rounds state := by
  cases rounds with
  | zero => rfl
  | succ rounds => rfl

theorem runRounds_succ (body : State -> Option Finish) (start stop : Nat) :
    runRounds limit body start stop (rounds + 1) state =
      (body { state with counter := start + 1 }).bind (fun part => part.andThen (fun left =>
        (passBracket limit start stop left).andThen (fun passed =>
          if passed.tape.cell = 0 then some ⟨passed, none⟩
          else runRounds limit body start stop rounds passed))) := by
  rw [runRounds]
  rcases body { state with counter := start + 1 } with _ | ⟨left, _ | fault⟩
  · rfl
  · exact (passBracket_andThen start stop (fun passed => some ⟨passed, none⟩) _
      (runRounds_counter body start stop)).symm
  · rfl

theorem runTree_loop :
    runTree limit rounds (.loop body rest) state =
      (passBracket limit state.counter (state.counter + 1 + body.text.length) state).andThen
        (fun passed =>
          if passed.tape.cell = 0 then runTree limit rounds rest passed
          else (runRounds limit (runTree limit rounds body) state.counter
            (state.counter + 1 + body.text.length) rounds passed).bind
              (fun part => part.andThen (runTree limit rounds rest))) := by
  rw [passBracket_andThen _ _ (runTree limit rounds rest)]
  · rw [runTree]
    cases charge limit state with
    | error fault => rfl
    | ok counted =>
        dsimp only
        rcases runRounds limit (runTree limit rounds body) state.counter
          (state.counter + 1 + body.text.length) rounds counted with _ | ⟨left, _ | fault⟩
        · rfl
        · rfl
        · rfl
  · intro passed counter
    rw [runRounds_counter]

/-! ## More rounds -/

theorem runRounds_mono {body larger : State -> Option Finish} {start stop more : Nat}
    (bodyMono : forall state part, body state = some part -> larger state = some part)
    {part : Finish} (ran : runRounds limit body start stop rounds state = some part)
    (enough : rounds ≤ more) : runRounds limit larger start stop more state = some part := by
  induction rounds generalizing state more part with
  | zero => cases ran
  | succ rounds inductionHypothesis =>
      cases more with
      | zero => exact absurd enough (Nat.not_succ_le_zero rounds)
      | succ more =>
          rw [runRounds_succ] at ran ⊢
          refine bind_andThen_mono (bodyMono _) ?_ ran
          intro left ended
          refine andThen_mono ?_
          intro passed part onward
          by_cases zero : passed.tape.cell = 0
          · rwa [if_pos zero] at onward ⊢
          · rw [if_neg zero] at onward ⊢
            exact inductionHypothesis onward (Nat.le_of_succ_le_succ enough)

/-- A tree run that came to its end stays the same when it is given more rounds. -/
theorem runTree_mono {row : Tree} {more : Nat} {part : Finish}
    (ran : runTree limit rounds row state = some part) (enough : rounds ≤ more) :
    runTree limit more row state = some part := by
  induction row generalizing state part with
  | nil => exact ran
  | leaf characters rest inductionHypothesis =>
      rw [runTree_leaf] at ran ⊢
      exact andThen_mono (fun _ _ => inductionHypothesis) ran
  | loop body rest bodyHypothesis restHypothesis =>
      rw [runTree_loop] at ran ⊢
      refine andThen_mono ?_ ran
      intro passed part onward
      by_cases zero : passed.tape.cell = 0
      · rw [if_pos zero] at onward ⊢
        exact restHypothesis onward
      · rw [if_neg zero] at onward ⊢
        refine bind_andThen_mono ?_ (fun _ _ => restHypothesis) onward
        intro ended rounded
        exact runRounds_mono (fun _ _ => bodyHypothesis) rounded enough

/-! ## Where a tree run leaves the counter -/

theorem runLeaf_counter {characters : List Char} {left : State}
    (ran : runLeaf limit characters state = ⟨left, none⟩) :
    left.counter = state.counter + characters.length := by
  unfold runLeaf at ran
  split at ran
  · cases ran
    rfl
  · rename_i instruction reads
    split at ran
    · cases ran
    · split at ran
      · cases ran
      · cases ran
        unfold Instruction.ofText? at reads
        split at reads
        · rfl
        · cases reads

theorem passBracket_counter {start stop : Nat} {passed : State}
    (passes : passBracket limit start stop state = ⟨passed, none⟩) :
    passed.counter = if passed.tape.cell = 0 then stop + 1 else start + 1 := by
  unfold passBracket at passes
  split at passes
  · cases passes
  · cases passes
    rfl

theorem runRounds_counter_behind {body : State -> Option Finish} {start stop : Nat} {part : Finish}
    (ran : runRounds limit body start stop rounds state = some part) (came : part.fault = none) :
    part.state.counter = stop + 1 := by
  induction rounds generalizing state with
  | zero => cases ran
  | succ rounds inductionHypothesis =>
      rw [runRounds_succ] at ran
      rcases bind_andThen_cases ran with ⟨_, failed⟩ | ⟨ended, _, onward⟩
      · exact absurd came failed
      · rcases andThen_cases onward with ⟨_, failed⟩ | ⟨passed, passes, ends⟩
        · exact absurd came failed
        · by_cases zero : passed.tape.cell = 0
          · rw [if_pos zero] at ends
            cases ends
            rw [passBracket_counter passes, if_pos zero]
          · rw [if_neg zero] at ends
            exact inductionHypothesis ends

theorem runTree_counter_behind {row : Tree} {part : Finish}
    (ran : runTree limit rounds row state = some part) (came : part.fault = none) :
    part.state.counter = state.counter + row.text.length := by
  induction row generalizing state with
  | nil =>
      cases ran
      rfl
  | leaf characters rest inductionHypothesis =>
      rw [runTree_leaf] at ran
      rcases andThen_cases ran with ⟨_, failed⟩ | ⟨passed, passes, behind⟩
      · exact absurd came failed
      · rw [inductionHypothesis behind, runLeaf_counter passes, Tree.text, List.length_append]
        omega
  | loop body rest _ inductionHypothesis =>
      have length : (Tree.loop body rest).text.length = body.text.length + rest.text.length + 2 := by
        simp only [Tree.text, List.length_cons, List.length_append]
        omega
      rw [runTree_loop] at ran
      rcases andThen_cases ran with ⟨_, failed⟩ | ⟨passed, passes, onward⟩
      · exact absurd came failed
      · by_cases zero : passed.tape.cell = 0
        · rw [if_pos zero] at onward
          rw [inductionHypothesis onward, passBracket_counter passes, if_pos zero]
          omega
        · rw [if_neg zero] at onward
          rcases bind_andThen_cases onward with ⟨_, failed⟩ | ⟨ended, rounded, behind⟩
          · exact absurd came failed
          · rw [inductionHypothesis behind, runRounds_counter_behind rounded rfl]
            omega

/-! ## Pieces as steps -/

variable {machine : Machine}

theorem landing_of_not_jumps {instruction : Instruction} {cell : UInt8}
    (passes : jumps instruction cell = false) (source : List Char) (position : Nat) :
    landing source instruction cell position = .ok (position + 1) := by
  cases instruction with
  | loopStart =>
      have nonzero : cell ≠ 0 := by simpa only [jumps, beq_eq_false_iff_ne] using passes
      simp only [landing, if_neg nonzero]
  | loopStop =>
      have zero : cell = 0 := by simpa only [jumps, bne_eq_false_iff_eq] using passes
      simp only [landing, if_pos zero]
  | increment => rfl
  | decrement => rfl
  | left => rfl
  | right => rfl
  | input => rfl
  | print => rfl

theorem landing_of_alone {character : Char} {instruction : Instruction}
    (reads : Instruction.ofChar? character = some instruction) (notStart : character ≠ '[')
    {source : List Char} (alone : character = ']' -> loopBegin? source state.counter = none)
    (due : jumps instruction state.tape.cell = true) :
    landing source instruction state.tape.cell state.counter =
      .error (.unmatched state.counter) := by
  have written := (Instruction.ofChar?_eq_some_iff _ _).mp reads
  cases instruction with
  | loopStart => exact absurd written notStart
  | loopStop =>
      have nonzero : state.tape.cell ≠ 0 := by simpa only [jumps, bne_iff_ne] using due
      simp only [landing, if_neg nonzero, alone written]
  | increment => cases due
  | decrement => cases due
  | left => cases due
  | right => cases due
  | input => cases due
  | print => cases due

/-- A leaf is one step, where a leaf that is a closing bracket has no partner. -/
theorem step_leaf {character : Char} (found : machine.source[state.counter]? = some character)
    (notStart : character ≠ '[')
    (alone : character = ']' -> loopBegin? machine.source state.counter = none) :
    machine.step state = machine.answer (runLeaf machine.limit [character] state) := by
  cases reads : Instruction.ofChar? character with
  | none =>
      rw [step_comment found reads]
      simp only [runLeaf, Instruction.ofText?, reads]
      rfl
  | some instruction =>
      cases budget : budgetFault? machine.limit state.steps with
      | some fault =>
          rw [step_refused found reads budget]
          simp only [runLeaf, Instruction.ofText?, reads, charge, budget]
          rfl
      | none =>
          cases due : jumps instruction state.tape.cell with
          | true =>
              have lands : landing machine.source instruction state.tape.cell state.counter =
                  .error (.unmatched state.counter) :=
                landing_of_alone reads notStart alone due
              rw [step_stranded found reads budget lands]
              simp only [runLeaf, Instruction.ofText?, reads, charge, budget, due, if_true]
              rfl
          | false =>
              rw [step_landed found reads budget (landing_of_not_jumps due _ _)]
              simp only [runLeaf, Instruction.ofText?, reads, charge, budget, due,
                Bool.false_eq_true, if_false]
              rfl

/-- Both brackets of a loop send the counter past the loop or into its body. -/
theorem landing_of_encloses {source : List Char} {start stop : Nat}
    (encloses : Encloses source start stop) (cell : UInt8) :
    landing source .loopStart cell start = .ok (if cell = 0 then stop + 1 else start + 1) ∧
      landing source .loopStop cell stop = .ok (if cell = 0 then stop + 1 else start + 1) := by
  have upward := (loopEnd?_eq_some_iff_encloses encloses.opens stop).mpr encloses
  have downward := (loopBegin?_eq_some_iff_encloses encloses.closes start).mpr encloses
  by_cases zero : cell = 0
  · simp only [landing, upward, zero, if_true, and_self]
  · simp only [landing, downward, zero, if_false, and_self]

theorem step_of_landing {character : Char} {instruction : Instruction} {start stop : Nat}
    (found : machine.source[state.counter]? = some character)
    (reads : Instruction.ofChar? character = some instruction)
    (acts : forall counted, effect instruction counted = counted)
    (lands : landing machine.source instruction state.tape.cell state.counter =
      .ok (if state.tape.cell = 0 then stop + 1 else start + 1)) :
    machine.step state = machine.answer (passBracket machine.limit start stop state) := by
  cases budget : budgetFault? machine.limit state.steps with
  | some fault =>
      rw [step_refused found reads budget]
      simp only [passBracket, charge, budget]
      rfl
  | none =>
      rw [step_landed found reads budget lands, acts]
      simp only [passBracket, charge, budget]
      rfl

/-- A bracket of an enclosed loop is one step. -/
theorem step_bracket {start stop : Nat} (encloses : Encloses machine.source start stop)
    (stands : state.counter = start ∨ state.counter = stop) :
    machine.step state = machine.answer (passBracket machine.limit start stop state) := by
  rcases stands with here | here
  · refine step_of_landing (here ▸ encloses.opens) rfl (fun _ => rfl) ?_
    rw [here]
    exact (landing_of_encloses encloses _).1
  · refine step_of_landing (here ▸ encloses.closes) rfl (fun _ => rfl) ?_
    rw [here]
    exact (landing_of_encloses encloses _).2

end Machine
end LoopTape
