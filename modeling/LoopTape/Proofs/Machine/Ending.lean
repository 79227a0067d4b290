import LoopTape.Machine.Run
import LoopTape.Proofs.Machine.Stepping

namespace LoopTape
namespace Machine

/-!
# How runs end

A run from a state ends in at most one way, however many steps it is given.
What it ends with is therefore a relation between a state and a finish in which
no numbers of steps occur.

With a budget every run ends.  Each step of it either counts an instruction or
passes a comment, and a counted instruction pays for all the comments that can
be passed until the next one.  What is left to be paid gets smaller with every
step, and it never exceeds the allowance that runs are given.
-/

/-- The run from a state ends with the given finish. -/
def Ends (machine : Machine) (state : State) (finish : Finish) : Prop :=
  Exists fun allowed => machine.runFor allowed state = some finish

theorem Ends.unique {machine : Machine} {state : State} {first second : Finish}
    (ends : machine.Ends state first) (also : machine.Ends state second) : first = second := by
  rcases ends with ⟨fewer, firstEnds⟩
  rcases also with ⟨more, secondEnds⟩
  have firstLonger := runFor_mono firstEnds (Nat.le_max_left fewer more)
  have secondLonger := runFor_mono secondEnds (Nat.le_max_right fewer more)
  rw [firstLonger] at secondLonger
  exact Option.some.inj secondLonger

/-! ## Runs with a budget -/

/-- The number of comments from the counter on. -/
def commentsAhead (machine : Machine) (state : State) : Nat :=
  (machine.source.drop state.counter).countP (fun character => !Instruction.isCode character)

/-- A bound on the steps that a run can still take within a budget. -/
def pendingSteps (machine : Machine) (limit : Nat) (state : State) : Nat :=
  (limit - state.steps) * (machine.commentCount + 1) + machine.commentsAhead state

theorem commentsAhead_le (machine : Machine) (state : State) :
    machine.commentsAhead state ≤ machine.commentCount :=
  (List.drop_sublist state.counter machine.source).countP_le

theorem commentsAhead_comment {machine : Machine} {state : State} {character : Char}
    (found : machine.source[state.counter]? = some character)
    (comment : Instruction.ofChar? character = none) :
    machine.commentsAhead state =
      machine.commentsAhead { state with counter := state.counter + 1 } + 1 := by
  rcases List.getElem?_eq_some_iff.mp found with ⟨inside, same⟩
  unfold commentsAhead
  rw [List.drop_eq_getElem_cons inside, same, List.countP_cons_of_pos]
  rw [Instruction.isCode, comment]
  rfl

/-- Every step that does not end the run has been paid for. -/
theorem pendingSteps_step {machine : Machine} {limit : Nat} (bounded : machine.limit = some limit)
    {state next : State} (moved : machine.step state = ⟨next, .ok true⟩) :
    machine.pendingSteps limit next < machine.pendingSteps limit state := by
  cases stepKind machine state with
  | outside past =>
      rw [step_outside past] at moved
      cases moved
  | comment character found comment =>
      rw [step_comment found comment] at moved
      have reached : { state with counter := state.counter + 1 } = next := congrArg Turn.state moved
      rw [← reached, pendingSteps, pendingSteps, commentsAhead_comment found comment]
      exact Nat.lt_succ_self _
  | refused character instruction fault found reads refused =>
      rw [step_refused found reads refused] at moved
      cases moved
  | stranded character instruction fault found reads allowed stranded =>
      rw [step_stranded found reads allowed stranded] at moved
      cases moved
  | landed character instruction target found reads allowed landed =>
      rw [step_landed found reads allowed landed] at moved
      have reached : { effect instruction { state with steps := state.steps + 1 } with
          counter := target } = next := congrArg Turn.state moved
      have counted : next.steps = state.steps + 1 := by
        rw [← reached]
        exact effect_steps instruction _
      have within : state.steps < limit := (budgetFault?_eq_none_iff _ _).mp allowed limit bounded
      have few := machine.commentsAhead_le next
      have paid : (limit - state.steps) * (machine.commentCount + 1) =
          (limit - next.steps) * (machine.commentCount + 1) + (machine.commentCount + 1) := by
        rw [← Nat.succ_mul]
        congr 1
        omega
      unfold pendingSteps
      omega

theorem runFor_of_pendingSteps_lt {machine : Machine} {limit : Nat}
    (bounded : machine.limit = some limit) {allowed : Nat} {state : State}
    (enough : machine.pendingSteps limit state < allowed) :
    Exists fun finish => machine.runFor allowed state = some finish := by
  induction allowed generalizing state with
  | zero => exact absurd enough (Nat.not_lt_zero _)
  | succ allowed inductionHypothesis =>
      unfold runFor
      split
      · rename_i next moved
        have less := pendingSteps_step bounded moved
        exact inductionHypothesis (by omega)
      · exact ⟨_, rfl⟩
      · exact ⟨_, rfl⟩

/-- The allowance of a run with a budget is enough. -/
theorem runFor_allowance {machine : Machine} {limit : Nat} (bounded : machine.limit = some limit)
    (state : State) :
    Exists fun finish => machine.runFor
      ((limit - state.steps + 1) * (machine.commentCount + 1)) state = some finish := by
  apply runFor_of_pendingSteps_lt bounded
  have few := machine.commentsAhead_le state
  rw [pendingSteps, Nat.succ_mul]
  omega

/-- What a run answers, with enough patience, is what it ends with. -/
theorem exists_run_iff_ends (machine : Machine) (state : State) (finish : Finish) :
    (Exists fun patience => machine.run patience state = some finish) ↔
      machine.Ends state finish := by
  unfold run allowance?
  cases bounded : machine.limit with
  | none => exact Iff.rfl
  | some limit =>
      simp only [Option.map_some, Option.getD_some]
      constructor
      · rintro ⟨_, finished⟩
        exact ⟨_, finished⟩
      · intro ends
        rcases runFor_allowance bounded state with ⟨reached, finished⟩
        rw [ends.unique ⟨_, finished⟩]
        exact ⟨0, finished⟩

theorem exists_execute_iff_ends (machine : Machine) (finish : Finish) :
    (Exists fun patience => machine.execute patience = some finish) ↔
      machine.Ends .fresh finish :=
  exists_run_iff_ends machine .fresh finish

/-- A run that no patience is enough for ends with nothing. -/
theorem forall_run_eq_none_iff (machine : Machine) (state : State) :
    (forall patience, machine.run patience state = none) ↔
      forall finish, ¬ machine.Ends state finish := by
  constructor
  · intro never finish ends
    rcases (exists_run_iff_ends machine state finish).mpr ends with ⟨patience, finished⟩
    rw [never patience] at finished
    cases finished
  · intro never patience
    cases finished : machine.run patience state with
    | none => rfl
    | some finish =>
        exact absurd ((exists_run_iff_ends machine state finish).mp ⟨patience, finished⟩)
          (never finish)

theorem forall_execute_eq_none_iff (machine : Machine) :
    (forall patience, machine.execute patience = none) ↔
      forall finish, ¬ machine.Ends .fresh finish :=
  forall_run_eq_none_iff machine .fresh

/-- The patience of a run does not matter when it has a budget. -/
theorem execute_of_ends {machine : Machine} {limit : Nat} (bounded : machine.limit = some limit)
    {finish : Finish} (ends : machine.Ends .fresh finish) (patience : Nat) :
    machine.execute patience = some finish := by
  rcases (exists_execute_iff_ends machine finish).mpr ends with ⟨_, finished⟩
  unfold execute run allowance? at finished ⊢
  rw [bounded] at finished ⊢
  exact finished

end Machine
end LoopTape
