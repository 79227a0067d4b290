import LoopTape.Proofs.Machine.Pieces

namespace LoopTape
namespace Machine

/-!
# Strays

A bracket in a canonical tree is part of a loop, or it is a closing bracket that
stands as a leaf in the row at the root.  The brackets of a loop always find
each other, so only a leaf of the second kind can be without a partner when a
jump is due.  The position that such a run reports is therefore the position of
one of these leaves: the length of the text of all nodes in front of it.
-/

variable {limit : Option Nat} {rounds position : Nat} {state : State} {part : Finish}

/-- The part ended because the bracket at the position has no partner. -/
def Finish.UnmatchedAt (part : Finish) (position : Nat) : Prop :=
  part.fault = some (.unmatched position)

theorem charge_ne_unmatched : charge limit state ≠ .error (.unmatched position) := by
  unfold charge budgetFault?
  cases limit with
  | none =>
      intro impossible
      cases impossible
  | some budget =>
      dsimp only
      by_cases used : budget ≤ state.steps
      · rw [if_pos used]
        intro impossible
        cases impossible
      · rw [if_neg used]
        intro impossible
        cases impossible

theorem passBracket_not_unmatchedAt {start stop : Nat} :
    ¬ (passBracket limit start stop state).UnmatchedAt position := by
  unfold passBracket Finish.UnmatchedAt
  cases charged : charge limit state with
  | error fault =>
      intro unmatched
      rw [Option.some.inj unmatched] at charged
      exact charge_ne_unmatched charged
  | ok counted =>
      intro impossible
      cases impossible

/-- A leaf without a partner is a closing bracket, unless it is an opening one. -/
theorem eq_stop_of_runLeaf {character : Char} (notStart : character ≠ '[')
    (unmatched : (runLeaf limit [character] state).UnmatchedAt position) :
    character = ']' ∧ position = state.counter := by
  unfold Finish.UnmatchedAt runLeaf Instruction.ofText? at unmatched
  cases reads : Instruction.ofChar? character with
  | none =>
      simp only [reads] at unmatched
      cases unmatched
  | some instruction =>
      have written := (Instruction.ofChar?_eq_some_iff _ _).mp reads
      simp only [reads] at unmatched
      cases charged : charge limit state with
      | error fault =>
          simp only [charged] at unmatched
          rw [Option.some.inj unmatched] at charged
          exact absurd charged charge_ne_unmatched
      | ok counted =>
          simp only [charged] at unmatched
          cases due : jumps instruction state.tape.cell with
          | false =>
              rw [due] at unmatched
              cases unmatched
          | true =>
              rw [due] at unmatched
              cases unmatched
              cases instruction with
              | loopStart => exact absurd written notStart
              | loopStop => exact ⟨written, rfl⟩
              | increment => cases due
              | decrement => cases due
              | left => cases due
              | right => cases due
              | input => cases due
              | print => cases due

theorem runRounds_not_unmatchedAt {body : State -> Option Finish} {start stop : Nat}
    (bodyMatched : forall state part, body state = some part -> ¬ part.UnmatchedAt position)
    (ran : runRounds limit body start stop rounds state = some part) :
    ¬ part.UnmatchedAt position := by
  induction rounds generalizing state with
  | zero => cases ran
  | succ rounds inductionHypothesis =>
      rw [runRounds_succ] at ran
      rcases bind_andThen_cases ran with ⟨ended, _⟩ | ⟨left, _, onward⟩
      · exact bodyMatched _ _ ended
      · rcases andThen_cases onward with ⟨same, _⟩ | ⟨passed, _, ends⟩
        · rw [← same]
          exact passBracket_not_unmatchedAt
        · by_cases zero : passed.tape.cell = 0
          · rw [if_pos zero] at ends
            cases ends
            intro impossible
            cases impossible
          · rw [if_neg zero] at ends
            exact inductionHypothesis ends

/-- Inside a loop every bracket has a partner. -/
theorem runTree_not_unmatchedAt {row : Tree} (enclosed : row.Enclosed)
    (ran : runTree limit rounds row state = some part) : ¬ part.UnmatchedAt position := by
  induction row generalizing state part with
  | nil =>
      cases ran
      intro impossible
      cases impossible
  | leaf characters rest inductionHypothesis =>
      rcases enclosed with ⟨⟨character, single, notStart, notStop⟩, later⟩
      rw [single, runTree_leaf] at ran
      rcases andThen_cases ran with ⟨same, _⟩ | ⟨left, _, behind⟩
      · rw [← same]
        intro unmatched
        exact notStop (eq_stop_of_runLeaf notStart unmatched).1
      · exact inductionHypothesis later behind
  | loop body rest bodyHypothesis restHypothesis =>
      rw [runTree_loop] at ran
      rcases andThen_cases ran with ⟨same, _⟩ | ⟨passed, _, onward⟩
      · rw [← same]
        exact passBracket_not_unmatchedAt
      · by_cases zero : passed.tape.cell = 0
        · rw [if_pos zero] at onward
          exact restHypothesis enclosed.2 onward
        · rw [if_neg zero] at onward
          rcases bind_andThen_cases onward with ⟨rounded, _⟩ | ⟨left, _, behind⟩
          · exact runRounds_not_unmatchedAt (fun _ _ => bodyHypothesis enclosed.1) rounded
          · exact restHypothesis enclosed.2 behind

/-- A run that ends at a bracket without a partner ends at a leaf of the root. -/
theorem exists_stray_of_unmatchedAt {row : Tree} (canonical : row.Canonical)
    (ran : runTree limit rounds row state = some part) (unmatched : part.UnmatchedAt position) :
    Exists fun before : Tree => Exists fun after : Tree =>
      row = before ++ .leaf [']'] after ∧ position = state.counter + before.text.length := by
  induction row generalizing state with
  | nil =>
      cases ran
      cases unmatched
  | leaf characters rest inductionHypothesis =>
      rcases canonical with ⟨⟨character, single, notStart⟩, later⟩
      rw [single, runTree_leaf] at ran
      rcases andThen_cases ran with ⟨same, _⟩ | ⟨left, passes, behind⟩
      · rw [← same] at unmatched
        rcases eq_stop_of_runLeaf notStart unmatched with ⟨isStop, here⟩
        exact ⟨.nil, rest, by rw [single, isStop]; rfl, here⟩
      · rcases inductionHypothesis later behind with ⟨before, after, split, reached⟩
        refine ⟨.leaf characters before, after, by rw [split]; rfl, ?_⟩
        rw [reached, runLeaf_counter passes, Tree.text, single, List.length_append]
        omega
  | loop body rest _ inductionHypothesis =>
      have goesOn : forall left, runTree limit rounds rest left = some part ->
          left.counter = state.counter + 1 + body.text.length + 1 ->
          Exists fun before : Tree => Exists fun after : Tree =>
            Tree.loop body rest = before ++ .leaf [']'] after ∧
              position = state.counter + before.text.length := by
        intro left behind past
        rcases inductionHypothesis canonical.2 behind with ⟨before, after, split, reached⟩
        refine ⟨.loop body before, after, by rw [split]; rfl, ?_⟩
        rw [reached, past]
        simp only [Tree.text, List.length_cons, List.length_append]
        omega
      rw [runTree_loop] at ran
      rcases andThen_cases ran with ⟨same, _⟩ | ⟨passed, passes, onward⟩
      · rw [← same] at unmatched
        exact absurd unmatched passBracket_not_unmatchedAt
      · by_cases zero : passed.tape.cell = 0
        · rw [if_pos zero] at onward
          apply goesOn passed onward
          rw [passBracket_counter passes, if_pos zero]
        · rw [if_neg zero] at onward
          rcases bind_andThen_cases onward with ⟨rounded, _⟩ | ⟨left, rounded, behind⟩
          · exact absurd unmatched
              (runRounds_not_unmatchedAt (fun _ _ => runTree_not_unmatchedAt canonical.1) rounded)
          · exact goesOn left behind (runRounds_counter_behind rounded rfl)

end Machine
end LoopTape
