import LoopTape.Proofs.Machine.Ending
import LoopTape.Proofs.Machine.Visiting

namespace LoopTape
namespace Machine

/-!
# A budget cuts a run short

A machine with a budget does what the machine without one does, until it stands
on an instruction and has counted as many as the budget allows.  There it stops
and leaves the state as it is.  If the run without a budget has ended by then, at
its end or at a bracket without a partner, the budget was never noticed.  The
instruction at which it fails is counted, so it has to be within the budget too.

Every run with a budget ends, so a run that goes on for ever without one goes
through every number of counted instructions.
-/

variable {source : List Char} {budget : Nat} {state left : State} {finish : Finish}

theorem allowed_of_unlimited (source : List Char) (steps : Nat) :
    budgetFault? (Machine.mk source none).limit steps = none := rfl

theorem step_comment_unlimited {character : Char}
    (found : source[state.counter]? = some character)
    (comment : Instruction.ofChar? character = none) :
    (Machine.mk source none).step state =
      (Machine.mk source none).answer ⟨{ state with counter := state.counter + 1 }, none⟩ :=
  @step_comment ⟨source, none⟩ state _ found comment

theorem step_landed_unlimited {character : Char} {next : Nat}
    (found : source[state.counter]? = some character)
    {instruction : Instruction} (reads : Instruction.ofChar? character = some instruction)
    (lands : landing source instruction state.tape.cell state.counter = .ok next) :
    (Machine.mk source none).step state =
      (Machine.mk source none).answer ⟨{ effect instruction
        { state with steps := state.steps + 1 } with counter := next }, none⟩ :=
  @step_landed ⟨source, none⟩ state _ _ found reads (allowed_of_unlimited source _) _ lands

/-- A machine with a budget stops on an instruction or does what it would do
without the budget. -/
theorem step_budget_cases (source : List Char) (budget : Nat) (state : State) :
    (OnCode source state ∧ budget ≤ state.steps ∧
      (Machine.mk source (some budget)).step state =
        ⟨state, .error (.overBudget state.steps budget)⟩) ∨
    ((Machine.mk source (some budget)).step state = (Machine.mk source none).step state ∧
      (OnCode source state -> state.steps < budget)) := by
  cases stepKind ⟨source, some budget⟩ state with
  | outside past =>
      have unlimited := @step_outside ⟨source, none⟩ state past
      refine Or.inr ⟨(step_outside past).trans unlimited.symm, ?_⟩
      rintro ⟨character, found, _⟩
      exact absurd (List.getElem?_eq_some_iff.mp found).1 (Nat.not_lt_of_le past)
  | comment character found comment =>
      have unlimited := @step_comment ⟨source, none⟩ state _ found comment
      refine Or.inr ⟨(step_comment found comment).trans unlimited.symm, ?_⟩
      rintro ⟨other, also, code⟩
      rw [Option.some.inj (also.symm.trans found), Instruction.not_isCode_of_ofChar? comment] at code
      cases code
  | refused character instruction fault found reads refused =>
      rcases (budgetFault?_eq_some_iff _ _ _).mp refused with ⟨limit, same, spent, exceeds⟩
      cases same
      refine Or.inl ⟨⟨character, found, Instruction.isCode_of_ofChar? reads⟩, spent, ?_⟩
      rw [step_refused found reads refused, exceeds]
  | stranded character instruction fault found reads allowed stranded =>
      have unlimited := @step_stranded ⟨source, none⟩ state _ _ found reads
        (allowed_of_unlimited source _) _ stranded
      refine Or.inr ⟨(step_stranded found reads allowed stranded).trans unlimited.symm, ?_⟩
      exact fun _ => (budgetFault?_eq_none_iff _ _).mp allowed budget rfl
  | landed character instruction next found reads allowed landed =>
      have unlimited := @step_landed ⟨source, none⟩ state _ _ found reads
        (allowed_of_unlimited source _) _ landed
      refine Or.inr ⟨(step_landed found reads allowed landed).trans unlimited.symm, ?_⟩
      exact fun _ => (budgetFault?_eq_none_iff _ _).mp allowed budget rfl

/-- A step that the budget allows does not exceed it. -/
theorem steps_step_le_budget (within : state.steps ≤ budget)
    (allowed : OnCode source state -> state.steps < budget) :
    ((Machine.mk source none).step state).state.steps ≤ budget := by
  rcases steps_step_cases ⟨source, none⟩ state with ⟨onCode, free⟩ | same
  · rw [steps_step_of_onCode onCode free]
    exact allowed onCode
  · rwa [same]

/-- How a run with a budget finishes, by what the run without it does. -/
inductive Cut (source : List Char) (budget : Nat) (state : State) (finish : Finish) : Prop where
  /-- It finishes as the run without the budget, which has counted few enough. -/
  | unnoticed (ends : (Machine.mk source none).Ends state finish)
      (few : finish.state.steps ≤ budget)
  /-- It stops at an instruction of the run without the budget. -/
  | short (left : State) (visits : (Machine.mk source none).Visits state left)
      (used : left.steps = budget) (onCode : OnCode source left)
      (exceeds : finish = ⟨left, some (.overBudget budget budget)⟩)

theorem Cut.of_moves {next : State} (moves : (Machine.mk source none).Moves state next)
    (later : Cut source budget next finish) : Cut source budget state finish := by
  cases later with
  | unnoticed ends few => exact .unnoticed ((ends_iff_of_moves moves).mpr ends) few
  | short left visits used onCode exceeds =>
      exact .short left (.head moves visits) used onCode exceeds

/-- A run with a budget is the run without it, or the beginning of it up to the
instruction that the budget does not allow. -/
theorem Ends.cut (ends : (Machine.mk source (some budget)).Ends state finish)
    (within : state.steps ≤ budget) : Cut source budget state finish := by
  refine Ends.along (motive := fun state => state.steps ≤ budget ->
    Cut source budget state finish) ?_ ends within
  intro state ends back within
  by_cases inside : state.counter < source.length
  · have after := (ends_inside_iff inside).mp ends
    rcases step_budget_cases source budget state with ⟨onCode, spent, stops⟩ | ⟨same, allowed⟩
    · rw [stops] at after
      rcases after with ⟨_, stopped⟩
      have used : state.steps = budget := Nat.le_antisymm within spent
      refine .short state .refl used onCode ?_
      rw [← Option.some.inj stopped, used]
      rfl
    · have kept := steps_step_le_budget within allowed
      rcases turned : (Machine.mk source none).step state with ⟨next, fault | more⟩
      · rw [same, turned] at after
        rw [turned] at kept
        rcases after with ⟨_, failed⟩
        rw [← Option.some.inj failed]
        refine .unnoticed ((ends_inside_iff inside).mpr ?_) kept
        rw [turned]
        exact ⟨0, rfl⟩
      · rw [turned] at kept
        have onward := back next inside (part_eq_iff_moves.mpr ⟨more, same.trans turned⟩)
        exact .of_moves ⟨more, turned⟩ (onward.2 kept)
  · rw [(ends_outside_iff (Nat.le_of_not_lt inside)).mp ends]
    exact .unnoticed ((ends_outside_iff (Nat.le_of_not_lt inside)).mpr rfl) within

/-- A run that comes through an instruction counts it. -/
theorem Ends.steps_lt_of_visits (ends : (Machine.mk source none).Ends state finish)
    (visits : (Machine.mk source none).Visits state left) (onCode : OnCode source left) :
    left.steps < finish.state.steps := by
  have counted := ((ends_iff_of_visits visits).mp ends).step_steps_le
  rwa [steps_step_of_onCode onCode (allowed_of_unlimited source _)] at counted

/-- A run that ends within the budget ends in the same way with it. -/
theorem Ends.with_budget (ends : (Machine.mk source none).Ends state finish)
    (within : finish.state.steps ≤ budget) :
    (Machine.mk source (some budget)).Ends state finish := by
  have first : state.steps ≤ budget :=
    Nat.le_trans (steps_le_step _ state) (Nat.le_trans ends.step_steps_le within)
  rcases @runFor_allowance ⟨source, some budget⟩ budget rfl state with ⟨other, finished⟩
  have bounded : (Machine.mk source (some budget)).Ends state other := ⟨_, finished⟩
  cases bounded.cut first with
  | unnoticed free _ => rwa [ends.unique free]
  | short left visits used onCode _ =>
      have more := ends.steps_lt_of_visits visits onCode
      omega

/-- Without a budget no run exceeds one. -/
theorem Ends.not_overBudget {steps limit : Nat}
    (ends : (Machine.mk source none).Ends state finish) :
    finish.fault ≠ some (.overBudget steps limit) := by
  apply Ends.along _ ends
  intro state ends back
  by_cases inside : state.counter < source.length
  · have after := (ends_inside_iff inside).mp ends
    cases stepKind ⟨source, none⟩ state with
    | outside past => exact absurd inside (Nat.not_lt_of_le past)
    | comment character found comment =>
        exact (back _ inside (by rw [step_comment found comment]; rfl)).2
    | refused character instruction fault found reads refused => cases refused
    | stranded character instruction fault found reads allowed stranded =>
        rw [step_stranded found reads allowed stranded] at after
        rcases after with ⟨_, failed⟩
        rw [← Option.some.inj failed]
        intro same
        rw [Option.some.inj same] at stranded
        exact landing_ne_overBudget stranded
    | landed character instruction next found reads allowed landed =>
        exact (back _ inside (by rw [step_landed found reads allowed landed]; rfl)).2
  · rw [(ends_outside_iff (Nat.le_of_not_lt inside)).mp ends]
    intro impossible
    cases impossible

/-- A run with a budget ends, whatever its text. -/
theorem exists_ends_of_budget (source : List Char) (budget : Nat) :
    Exists fun finish => (Machine.mk source (some budget)).Ends .fresh finish := by
  rcases @runFor_allowance ⟨source, some budget⟩ budget rfl .fresh with ⟨finish, finished⟩
  exact ⟨finish, _, finished⟩

/-- A run without a budget that has ended within one ends in the same way with
it.  If it has not ended by then, because it counts more or goes on for ever, the
run with the budget stops in the one state of it that has counted as much as the
budget allows and stands on an instruction.  A return within a budget is
therefore the return for every larger one, and for none. -/
theorem budget_cuts_run_short (source : List Char) (budget : Nat) :
    (forall patience finish, (Machine.mk source none).execute patience = some finish ->
      finish.state.steps ≤ budget ->
        forall patience, (Machine.mk source (some budget)).execute patience = some finish) ∧
    ((forall patience finish, (Machine.mk source none).execute patience = some finish ->
        budget < finish.state.steps) ->
      Exists fun left =>
        (forall patience, (Machine.mk source (some budget)).execute patience =
          some ⟨left, some (.overBudget budget budget)⟩) ∧
        forall state, ((Machine.mk source none).Visits .fresh state ∧ state.steps = budget ∧
          OnCode source state) ↔ state = left) ∧
    (forall patience finish steps limit,
      (Machine.mk source none).execute patience = some finish ->
        finish.fault ≠ some (.overBudget steps limit)) ∧
    (forall patience left,
      (Machine.mk source (some budget)).execute patience = some ⟨left, none⟩ ->
        (forall larger, budget ≤ larger -> forall patience,
          (Machine.mk source (some larger)).execute patience = some ⟨left, none⟩) ∧
        Exists fun patience =>
          (Machine.mk source none).execute patience = some ⟨left, none⟩) := by
  refine ⟨?_, ?_, ?_, ?_⟩
  · intro patience finish finished within
    have ends := (exists_execute_iff_ends _ _).mp ⟨patience, finished⟩
    exact execute_of_ends rfl (ends.with_budget within)
  · intro longer
    rcases exists_ends_of_budget source budget with ⟨finish, ends⟩
    cases ends.cut (Nat.zero_le _) with
    | unnoticed free few =>
        rcases (exists_execute_iff_ends _ _).mpr free with ⟨patience, finished⟩
        exact absurd few (Nat.not_le_of_lt (longer patience finish finished))
    | short left visits used onCode exceeds =>
        rw [exceeds] at ends
        refine ⟨left, execute_of_ends rfl ends, fun state => ⟨?_, ?_⟩⟩
        · rintro ⟨visited, same, stands⟩
          exact visited.unique_onCode visits stands onCode (allowed_of_unlimited source _)
            (same.trans used.symm)
        · rintro rfl
          exact ⟨visits, used, onCode⟩
  · intro patience finish steps limit finished
    exact ((exists_execute_iff_ends _ _).mp ⟨patience, finished⟩).not_overBudget
  · intro patience left finished
    have ends := (exists_execute_iff_ends _ _).mp ⟨patience, finished⟩
    cases ends.cut (Nat.zero_le _) with
    | unnoticed free few =>
        refine ⟨fun larger more => ?_, (exists_execute_iff_ends _ _).mpr free⟩
        exact execute_of_ends rfl (free.with_budget (Nat.le_trans few more))
    | short _ _ _ _ exceeds => cases exceeds

/-- The comment behind the last instruction that a budget allows is still passed,
and the bracket without a partner behind it has to be within the budget. -/
theorem budgets_around_stray_bracket :
    (forall patience, (Machine.mk ['+', 'x', ']'] (some 2)).execute patience =
      some ⟨⟨Tape.blank.increment, 2, #[], 2⟩, some (.unmatched 2)⟩) ∧
    (forall patience, (Machine.mk ['+', 'x', ']'] (some 1)).execute patience =
      some ⟨⟨Tape.blank.increment, 2, #[], 1⟩, some (.overBudget 1 1)⟩) ∧
    forall larger, 1 ≤ larger -> forall patience,
      (Machine.mk ['+', 'x'] (some larger)).execute patience =
        some ⟨⟨Tape.blank.increment, 2, #[], 1⟩, none⟩ := by
  have first : (Machine.mk ['+', 'x', ']'] none).step .fresh =
      ⟨⟨Tape.blank.increment, 1, #[], 1⟩, .ok true⟩ := rfl
  have second : (Machine.mk ['+', 'x', ']'] none).step ⟨Tape.blank.increment, 1, #[], 1⟩ =
      ⟨⟨Tape.blank.increment, 2, #[], 1⟩, .ok true⟩ := rfl
  have lost : landing ['+', 'x', ']'] .loopStop Tape.blank.increment.cell 2 =
      .error (.unmatched 2) := by
    rw [blank_increment_cell]
    rfl
  have third : (Machine.mk ['+', 'x', ']'] none).step ⟨Tape.blank.increment, 2, #[], 1⟩ =
      ⟨⟨Tape.blank.increment, 2, #[], 2⟩, .error (.unmatched 2)⟩ :=
    @step_stranded ⟨['+', 'x', ']'], none⟩ ⟨_, 2, _, _⟩ ']' .loopStop rfl rfl rfl _ lost
  have stray : (Machine.mk ['+', 'x', ']'] none).execute 3 =
      some ⟨⟨Tape.blank.increment, 2, #[], 2⟩, some (.unmatched 2)⟩ := by
    change (Machine.mk ['+', 'x', ']'] none).runFor 3 .fresh = _
    simp only [runFor, first, second, third]
  rcases budget_cuts_run_short ['+', 'x', ']'] 2 with ⟨within, _, _, _⟩
  rcases budget_cuts_run_short ['+', 'x', ']'] 1 with ⟨_, beyond, _, _⟩
  rcases budget_cuts_run_short ['+', 'x'] 1 with ⟨_, _, _, returned⟩
  refine ⟨within 3 _ stray (Nat.le_refl 2), ?_, (returned 0 _ ?_).1⟩
  · have longer : forall patience finish,
        (Machine.mk ['+', 'x', ']'] none).execute patience = some finish ->
          1 < finish.state.steps := by
      intro patience finish finished
      rw [Ends.unique ⟨patience, finished⟩ ⟨3, stray⟩]
      exact Nat.lt_succ_self 1
    rcases beyond longer with ⟨left, stops, only⟩
    have here := (only ⟨Tape.blank.increment, 2, #[], 1⟩).mp
      ⟨.tail (.single ⟨true, first⟩) ⟨true, second⟩, rfl, ']', rfl, rfl⟩
    rwa [← here] at stops
  · rfl

end Machine
end LoopTape
