import LoopTape.Machine.Session
import LoopTape.Proofs.Machine.Stepping

namespace LoopTape
namespace Machine

/-!
# The states of a session

A session comes about from a fresh one by operations that are answered.  Steps
may fail in it and be asked for again, and the state may be reset, kept and put
back in any order.  None of this makes a state of its own: every state of a session,
the kept ones included, is what a fresh machine is left with after some number of
calls for a step.

What the fresh state has and no step destroys is therefore had by every state of
every session.  An operation that is answered with a fault got it from a step, and
the step was the last thing that the operation did.
-/

/-! ## Calls for a step -/

/-- The state that is left by a number of calls for a step, failed ones included. -/
def after (machine : Machine) : Nat -> State -> State
  | 0, state => state
  | count + 1, state => after machine count (machine.step state).state

theorem after_add (machine : Machine) (first second : Nat) (state : State) :
    machine.after (first + second) state = machine.after second (machine.after first state) := by
  induction first generalizing state with
  | zero => rw [Nat.zero_add, after]
  | succ first inductionHypothesis => rw [Nat.succ_add, after, inductionHypothesis, after]

/-- What a step keeps is kept by any number of calls. -/
theorem after_keeps {machine : Machine} {motive : State -> Prop}
    (kept : forall state, motive state -> motive (machine.step state).state) (count : Nat)
    {state : State} (holds : motive state) : motive (machine.after count state) := by
  induction count generalizing state with
  | zero => exact holds
  | succ count inductionHypothesis => exact inductionHypothesis (kept state holds)

/-- Calls for a step leave this finish: its state is what they leave, and its fault
is that of the last call. -/
def Leaves (machine : Machine) (state : State) (finish : Finish) : Prop :=
  Exists fun count => finish.state = machine.after count state ∧
    forall fault, finish.fault = some fault ->
      Exists fun fewer => machine.step (machine.after fewer state) = ⟨finish.state, .error fault⟩

variable {machine : Machine} {state next : State} {finish : Finish}

theorem Leaves.refl (machine : Machine) (state : State) : machine.Leaves state ⟨state, none⟩ :=
  ⟨0, rfl, fun _ impossible => by cases impossible⟩

/-- The calls of an operation begin with its first step. -/
theorem Leaves.of_step {more : Bool} (moved : machine.step state = ⟨next, .ok more⟩)
    (leaves : machine.Leaves next finish) : machine.Leaves state finish := by
  have first : forall count, machine.after (count + 1) state = machine.after count next := by
    intro count
    rw [after, moved]
  rcases leaves with ⟨count, reached, failed⟩
  refine ⟨count + 1, reached.trans (first count).symm, ?_⟩
  intro fault met
  rcases failed fault met with ⟨fewer, last⟩
  refine ⟨fewer + 1, ?_⟩
  rw [first]
  exact last

theorem Leaves.of_failed {fault : Fault} (failed : machine.step state = ⟨next, .error fault⟩) :
    machine.Leaves state ⟨next, some fault⟩ := by
  refine ⟨1, ?_, ?_⟩
  · rw [after, failed]
    rfl
  · intro other same
    rw [← Option.some.inj same]
    exact ⟨0, failed⟩

theorem leaves_of_runFor {allowed : Nat} (finished : machine.runFor allowed state = some finish) :
    machine.Leaves state finish := by
  induction allowed generalizing state with
  | zero => cases finished
  | succ allowed inductionHypothesis =>
      rcases moved : machine.step state with ⟨next, fault | _ | _⟩
      · simp only [runFor, moved] at finished
        cases finished
        exact .of_failed moved
      · simp only [runFor, moved] at finished
        cases finished
        exact .of_step moved (.refl machine next)
      · simp only [runFor, moved] at finished
        exact .of_step moved (inductionHypothesis finished)

namespace Session

theorem leaves_takeSteps (machine : Machine) (count : Nat) (state : State) :
    machine.Leaves state (takeSteps machine count state).2 := by
  induction count generalizing state with
  | zero => exact .refl machine state
  | succ count inductionHypothesis =>
      rcases moved : machine.step state with ⟨next, fault | more⟩
      · simp only [takeSteps, moved]
        exact .of_failed moved
      · simp only [takeSteps, moved]
        exact .of_step moved (inductionHypothesis next)

/-! ## What an operation does -/

/-- What an operation can do to a session.  Only steps can meet a fault. -/
inductive Performed (session next : Session) (answer : Answer) : Prop where
  /-- It takes steps, by themselves or in a run. -/
  | steps (leaves : session.machine.Leaves session.state ⟨next.state, answer.fault⟩)
      (same : next = { session with state := next.state })
  | reset (quiet : answer.fault = none) (same : next = { session with state := .fresh })
  | keep (quiet : answer.fault = none)
      (same : next = { session with snapshots := session.snapshots.push session.state })
  | inspect (quiet : answer.fault = none) (same : next = session)
  | resetKept (index : Nat) (quiet : answer.fault = none)
      (same : next =
        { session with snapshots := session.snapshots.setIfInBounds index .fresh })
  | restore (state : State) (kept : state ∈ session.snapshots) (quiet : answer.fault = none)
      (same : next = { session with state := state })

variable {session next : Session} {answer : Answer} {operation : Operation} {patience : Nat}

theorem performed (answered : session.perform patience operation = some (answer, next)) :
    Performed session next answer := by
  cases operation with
  | step count =>
      cases answered
      exact .steps (leaves_takeSteps _ _ _) rfl
  | run =>
      rcases Option.map_eq_some_iff.mp answered with ⟨finish, ran, same⟩
      cases same
      exact .steps (leaves_of_runFor ran) rfl
  | reset =>
      rw [perform_reset] at answered
      cases answered
      exact .reset rfl rfl
  | snapshot =>
      rw [perform_snapshot] at answered
      cases answered
      exact .keep rfl rfl
  | inspect index =>
      rcases Option.map_eq_some_iff.mp answered with ⟨state, _, same⟩
      cases same
      exact .inspect rfl rfl
  | resetSnapshot index =>
      rcases Option.map_eq_some_iff.mp answered with ⟨state, _, same⟩
      rw [State.reset_eq_fresh] at same
      cases same
      exact .resetKept index rfl rfl
  | restore index =>
      rcases Option.map_eq_some_iff.mp answered with ⟨state, found, same⟩
      rw [State.snapshot_eq] at same
      cases same
      exact .restore state (Array.mem_of_getElem? found) rfl rfl

/-- The fault that an operation met is that of a step, after which it did nothing. -/
theorem Performed.exists_step (performed : Performed session next answer) {fault : Fault}
    (met : answer.fault = some fault) :
    Exists fun fewer => session.machine.step (session.machine.after fewer session.state) =
      ⟨next.state, .error fault⟩ := by
  have loud : answer.fault ≠ none := by
    rw [met]
    exact Option.some_ne_none fault
  cases performed with
  | steps leaves _ =>
      rcases leaves with ⟨_, _, failed⟩
      exact failed fault met
  | reset quiet _ => exact absurd quiet loud
  | keep quiet _ => exact absurd quiet loud
  | inspect quiet _ => exact absurd quiet loud
  | resetKept _ quiet _ => exact absurd quiet loud
  | restore _ _ quiet _ => exact absurd quiet loud

/-! ## Reached sessions -/

/-- The sessions that come about from the fresh one by operations that are answered. -/
inductive Reached (machine : Machine) : Session -> Prop where
  | start : Reached machine (Session.start machine)
  | perform {session next : Session} {patience : Nat} {operation : Operation} {answer : Answer}
      (reached : Reached machine session)
      (answered : session.perform patience operation = some (answer, next)) :
      Reached machine next

/-- Every state of a session is left by calls on a fresh machine. -/
structure OnTrail (session : Session) : Prop where
  state : Exists fun count => session.state = session.machine.after count .fresh
  snapshots : forall snapshot, snapshot ∈ session.snapshots ->
    Exists fun count => snapshot = session.machine.after count .fresh

theorem Performed.onTrail (performed : Performed session next answer) (trail : OnTrail session) :
    OnTrail next := by
  cases performed with
  | steps leaves same =>
      rcases trail.state with ⟨count, reached⟩
      rcases leaves with ⟨later, left, _⟩
      rw [same]
      refine ⟨⟨count + later, ?_⟩, trail.snapshots⟩
      rw [after_add, ← reached]
      exact left
  | reset _ same =>
      rw [same]
      exact ⟨⟨0, rfl⟩, trail.snapshots⟩
  | keep _ same =>
      rw [same]
      refine ⟨trail.state, ?_⟩
      intro snapshot member
      rcases Array.mem_push.mp member with older | newest
      · exact trail.snapshots snapshot older
      · rw [newest]
        exact trail.state
  | inspect _ same =>
      rw [same]
      exact trail
  | resetKept index _ same =>
      rw [same]
      refine ⟨trail.state, ?_⟩
      intro snapshot member
      rcases Array.mem_or_eq_of_mem_setIfInBounds member with older | fresh
      · exact trail.snapshots snapshot older
      · exact ⟨0, fresh⟩
  | restore state kept _ same =>
      -- What is put back was a state of the session when it was kept.
      rw [same]
      exact ⟨trail.snapshots state kept, trail.snapshots⟩

theorem Performed.machine_eq (performed : Performed session next answer) :
    next.machine = session.machine := by
  cases performed with
  | steps _ same => rw [same]
  | reset _ same => rw [same]
  | keep _ same => rw [same]
  | inspect _ same => rw [same]
  | resetKept _ _ same => rw [same]
  | restore _ _ _ same => rw [same]

theorem Reached.machine_eq {machine : Machine} (reached : Reached machine session) :
    session.machine = machine := by
  induction reached with
  | start => rfl
  | perform _ answered inductionHypothesis =>
      exact (performed answered).machine_eq.trans inductionHypothesis

theorem Reached.onTrail {machine : Machine} (reached : Reached machine session) :
    OnTrail session := by
  induction reached with
  | start => exact ⟨⟨0, rfl⟩, fun snapshot kept => absurd kept (Array.not_mem_empty snapshot)⟩
  | perform _ answered inductionHypothesis => exact (performed answered).onTrail inductionHypothesis

/-- What the fresh state has and a step keeps is had by every state of a session. -/
theorem Reached.keeps {machine : Machine} {motive : State -> Prop}
    (reached : Reached machine session) (fresh : motive .fresh)
    (kept : forall state, motive state -> motive (machine.step state).state) :
    motive session.state ∧ forall snapshot, snapshot ∈ session.snapshots -> motive snapshot := by
  have same := reached.machine_eq
  rcases reached.onTrail with ⟨⟨count, left⟩, snapshots⟩
  constructor
  · rw [left, same]
    exact after_keeps kept count fresh
  · intro snapshot member
    rcases snapshots snapshot member with ⟨earlier, keptThen⟩
    rw [keptThen, same]
    exact after_keeps kept earlier fresh

/-! ## A session that has failed -/

/-- Two steps come to a bracket without a partner, and both of them are counted. -/
theorem perform_stray_bracket (spare : Nat) :
    (Session.start ⟨['+', ']'], some (spare + 2)⟩).perform 0 (.step 2) =
      some (⟨.answers [true], some (.unmatched 1)⟩,
        ⟨⟨['+', ']'], some (spare + 2)⟩, ⟨Tape.blank.increment, 1, #[], 2⟩, #[]⟩) := by
  have first : (Machine.mk ['+', ']'] (some (spare + 2))).step .fresh =
      ⟨⟨Tape.blank.increment, 1, #[], 1⟩, .ok true⟩ := rfl
  have lost : landing ['+', ']'] .loopStop Tape.blank.increment.cell 1 =
      .error (.unmatched 1) := by
    rw [blank_increment_cell]
    rfl
  have second : (Machine.mk ['+', ']'] (some (spare + 2))).step
      ⟨Tape.blank.increment, 1, #[], 1⟩ =
        ⟨⟨Tape.blank.increment, 1, #[], 2⟩, .error (.unmatched 1)⟩ :=
    @step_stranded ⟨['+', ']'], some (spare + 2)⟩ ⟨_, 1, _, _⟩ ']' .loopStop rfl rfl rfl _ lost
  simp only [Session.start, perform, takeSteps, first, second]

end Session
end Machine
end LoopTape
