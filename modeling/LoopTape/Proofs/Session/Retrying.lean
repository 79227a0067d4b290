import LoopTape.Proofs.Machine.Stepping
import LoopTape.Proofs.Session.Reaching
import LoopTape.Report.Failure

namespace LoopTape
namespace Machine

/-!
# Asking a failed machine again

A machine that has failed can be asked to go on, by steps or by runs, any number
of times.  It never succeeds, since nothing that a failure leaves could make the
next try end otherwise.  A budget that is used up leaves the whole state as it was.
A bracket without a partner leaves the counter on itself and the cell as it was.

The two failures meet in one way.  Each try at such a bracket is counted, so with a
budget the tries use it up, one by one.  From then on it is the budget that is
reported, and no longer the bracket.
-/

/-- What a failed machine is asked for. -/
inductive Call where
  | step
  | run
  deriving DecidableEq

namespace Call

def operation : Call -> Operation
  | step => .step 1
  | run => .run

/-- The reply of a call that fails before anything is done. -/
def refusal : Call -> Reply
  | step => .answers []
  | run => .nothing

end Call

/-- All that comes back from a call: the reply, the failure that is reported if
there is one, and the state that is left. -/
structure Told where
  reply : Reply
  failure : Option Report.Failure
  state : State

namespace Told

def of (source : List Char) (entry : Answer × State) : Told where
  reply := entry.1.reply
  failure := entry.1.fault.map (Report.Failure.ofFault source)
  state := entry.2

/-- The try with this index, counted from zero, failed at a bracket and was counted. -/
def unmatched (source : List Char) (position : Nat) (state : State) (index : Nat) (call : Call) :
    Told where
  reply := call.refusal
  failure := some (.unterminated (.at source position))
  state := { state with steps := state.steps + (index + 1) }

/-- A try failed because the budget was used up, and changed nothing. -/
def exceeded (steps limit : Nat) (state : State) (call : Call) : Told where
  reply := call.refusal
  failure := some (.stepLimit (.exceeded steps limit))
  state := state

end Told

namespace Session

/-- Call for steps and runs, one after the other. -/
def tellAll (patience : Nat) (session : Session) (calls : List Call) : Option (List Told) :=
  (session.performAll patience (calls.map Call.operation)).map
    (List.map (Told.of session.machine.source))

/-- What is told by the tries at a bracket without a partner, when a first try has
left this state: always the bracket, as long as the budget lasts. -/
def retold (machine : Machine) (position : Nat) (state : State) (index : Nat) (call : Call) : Told :=
  match machine.limit with
  | none => .unmatched machine.source position state index call
  | some budget =>
    if index < budget - state.steps then .unmatched machine.source position state index call
    else .exceeded budget budget { state with steps := budget } call

/-! ## One more try -/

variable {machine : Machine} {state left : State} {snapshots : Array State} {fault : Fault}
  {position patience : Nat}

/-- A run fails at once when its first step does. -/
theorem run_of_failed (failed : machine.step state = ⟨left, .error fault⟩) (patience : Nat) :
    machine.run (patience + 1) state = some ⟨left, some fault⟩ := by
  -- A budget allows for the step that reports it as used up, so no run is given none.
  have positive : Exists fun allowed =>
      (machine.allowance? state).getD (patience + 1) = allowed + 1 := by
    cases limited : machine.limit with
    | none => exact ⟨patience, by rw [allowance?, limited]; rfl⟩
    | some budget =>
        apply Nat.exists_eq_succ_of_ne_zero
        rw [allowance?, limited]
        exact Nat.mul_ne_zero (Nat.succ_ne_zero _) (Nat.succ_ne_zero _)
  rcases positive with ⟨allowed, same⟩
  rw [run, same, runFor, failed]

theorem perform_of_failed (failed : machine.step state = ⟨left, .error fault⟩) (patience : Nat)
    (call : Call) :
    (Session.mk machine state snapshots).perform (patience + 1) call.operation =
      some (⟨call.refusal, some fault⟩, ⟨machine, left, snapshots⟩) := by
  cases call with
  | step => simp only [Call.operation, perform, takeSteps, failed, Call.refusal]
  | run => simp only [Call.operation, perform, run_of_failed failed, Option.map_some, Call.refusal]

theorem tellAll_of_failed (failed : machine.step state = ⟨left, .error fault⟩) (call : Call)
    (later : List Call) :
    (Session.mk machine state snapshots).tellAll (patience + 1) (call :: later) =
      ((Session.mk machine left snapshots).tellAll (patience + 1) later).map
        (List.cons ⟨call.refusal, some (.ofFault machine.source fault), left⟩) := by
  simp only [tellAll, List.map_cons, performAll, perform_of_failed failed, Option.map_map]
  rfl

/-! ## Any number of tries -/

/-- A step that fails and changes nothing fails in this way for ever. -/
theorem tellAll_of_standstill (failed : machine.step state = ⟨state, .error fault⟩)
    (calls : List Call) :
    (Session.mk machine state snapshots).tellAll (patience + 1) calls =
      some (calls.map (fun call =>
        ⟨call.refusal, some (.ofFault machine.source fault), state⟩)) := by
  induction calls with
  | nil => rfl
  | cons call later inductionHypothesis =>
      rw [tellAll_of_failed failed, inductionHypothesis]
      rfl

theorem retold_of_refused {budget : Nat} (limited : machine.limit = some budget)
    (used : state.steps = budget) :
    retold machine position state = fun _ => .exceeded budget budget state := by
  funext index call
  rw [← used] at limited ⊢
  simp only [retold, limited, Nat.sub_self, if_neg (Nat.not_lt_zero index)]

theorem retold_zero (allowed : budgetFault? machine.limit state.steps = none) :
    retold machine position state 0 = .unmatched machine.source position state 0 := by
  funext call
  cases limited : machine.limit with
  | none => simp only [retold, limited]
  | some budget =>
      have within := (budgetFault?_eq_none_iff _ _).mp allowed budget limited
      simp only [retold, limited, if_pos (Nat.sub_pos_of_lt within)]

/-- The tries behind one that is counted are tries from what it leaves. -/
theorem retold_succ (machine : Machine) (position : Nat) (state : State) (index : Nat) :
    retold machine position state (index + 1) =
      retold machine position { state with steps := state.steps + 1 } index := by
  funext call
  have onward : state.steps + (index + 1 + 1) = state.steps + 1 + (index + 1) := by omega
  cases limited : machine.limit with
  | none => simp only [retold, limited, Told.unmatched, onward]
  | some budget =>
      have shorter : index + 1 < budget - state.steps ↔ index < budget - (state.steps + 1) := by
        omega
      simp only [retold, limited, Told.unmatched, onward, shorter]

theorem tellAll_of_stranded (stranded : Stranded machine.source position state)
    (within : forall budget, machine.limit = some budget -> state.steps ≤ budget)
    (calls : List Call) :
    (Session.mk machine state snapshots).tellAll (patience + 1) calls =
      some (calls.mapIdx (retold machine position state)) := by
  -- The induction is for every such state, since a try that is counted leaves another one.
  induction calls generalizing state with
  | nil => rfl
  | cons call later inductionHypothesis =>
      cases allowed : budgetFault? machine.limit state.steps with
      | none =>
          have counted := @inductionHypothesis { state with steps := state.steps + 1 } stranded
            ((budgetFault?_eq_none_iff _ _).mp allowed)
          rw [tellAll_of_failed (stranded.step allowed), counted, List.mapIdx_cons,
            retold_zero allowed]
          simp only [retold_succ]
          rfl
      | some fault =>
          rcases (budgetFault?_eq_some_iff _ _ _).mp allowed with ⟨budget, limited, spent, same⟩
          have used := Nat.le_antisymm (within budget limited) spent
          have refused := stranded.step_refused allowed
          rw [tellAll_of_failed refused, inductionHypothesis stranded within, List.mapIdx_cons,
            retold_of_refused limited used, same, used]
          rfl

/-! ## After any failure -/

variable {session next : Session} {answer : Answer}

theorem Performed.tellAll_of_exceeded {steps limit : Nat}
    (performed : Performed session next answer)
    (exceeded : answer.fault = some (.overBudget steps limit)) (calls : List Call) :
    next.tellAll (patience + 1) calls = some (calls.map (.exceeded steps limit next.state)) := by
  rcases performed.exists_step exceeded with ⟨fewer, failed⟩
  have stays := (refused_of_overBudget failed).1
  rw [← stays, ← performed.machine_eq] at failed
  exact tellAll_of_standstill failed calls

/-- The bracket was counted when it failed, so the budget allowed it. -/
theorem Performed.stranded (performed : Performed session next answer)
    (unmatched : answer.fault = some (.unmatched position)) :
    Stranded next.machine.source position next.state ∧
      forall budget, next.machine.limit = some budget -> next.state.steps ≤ budget := by
  rcases performed.exists_step unmatched with ⟨fewer, failed⟩
  rcases stranded_of_unmatched failed with ⟨counted, stranded, allowed⟩
  rw [performed.machine_eq, counted]
  exact ⟨stranded, (budgetFault?_eq_none_iff _ _).mp allowed⟩

/-- A step that fails for the budget changes nothing, and one that fails for a bracket
counts it and changes nothing else.  Whatever operation has failed, a budget that was
used up is reported again for ever, and a bracket is reported until the tries have used
up the budget, or for ever if there is none. -/
theorem failures_repeat (session : Session) :
    (forall left steps limit,
      session.machine.step session.state = ⟨left, .error (.overBudget steps limit)⟩ ->
        left = session.state) ∧
    (forall left position,
      session.machine.step session.state = ⟨left, .error (.unmatched position)⟩ ->
        left = { session.state with steps := session.state.steps + 1 }) ∧
    forall patience operation answer next,
      session.perform patience operation = some (answer, next) ->
        (forall steps limit, answer.fault = some (.overBudget steps limit) ->
          forall patience calls, next.tellAll (patience + 1) calls =
            some (calls.map (.exceeded steps limit next.state))) ∧
        forall position, answer.fault = some (.unmatched position) ->
          (forall budget, session.machine.limit = some budget -> next.state.steps ≤ budget) ∧
          forall patience calls, next.tellAll (patience + 1) calls =
            some (calls.mapIdx (retold session.machine position next.state)) := by
  refine ⟨?_, ?_, ?_⟩
  · intro left steps limit failed
    exact (refused_of_overBudget failed).1
  · intro left position failed
    exact (stranded_of_unmatched failed).1
  · intro patience operation answer next answered
    have did := performed answered
    constructor
    · intro steps limit exceeded patience calls
      exact did.tellAll_of_exceeded exceeded calls
    · intro position unmatched
      rcases did.stranded unmatched with ⟨stranded, within⟩
      rw [← did.machine_eq]
      exact ⟨within, fun patience calls => tellAll_of_stranded stranded within calls⟩

/-- A third instruction is left for the first try, and the other tries are refused. -/
theorem tries_at_stray_bracket :
    Exists fun next =>
      (Session.start ⟨['+', ']'], some 3⟩).perform 0 (.step 2) =
        some (⟨.answers [true], some (.unmatched 1)⟩, next) ∧
      next.tellAll 1 [.run, .step, .run] = some
        [⟨.nothing, some (.unterminated (.at ['+', ']'] 1)), ⟨Tape.blank.increment, 1, #[], 3⟩⟩,
          ⟨.answers [], some (.stepLimit (.exceeded 3 3)), ⟨Tape.blank.increment, 1, #[], 3⟩⟩,
          ⟨.nothing, some (.stepLimit (.exceeded 3 3)), ⟨Tape.blank.increment, 1, #[], 3⟩⟩] := by
  rcases failures_repeat (Session.start ⟨['+', ']'], some 3⟩) with ⟨_, _, later⟩
  rcases later 0 (.step 2) _ _ (perform_stray_bracket 1) with ⟨_, tries⟩
  rcases tries 1 rfl with ⟨_, told⟩
  exact ⟨_, perform_stray_bracket 1, told 0 [.run, .step, .run]⟩

end Session
end Machine
end LoopTape
