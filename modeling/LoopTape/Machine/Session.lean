import LoopTape.Machine.Run

namespace LoopTape
namespace Machine

/-!
# Sessions

A session works on one machine, step by step or run by run, and can keep
snapshots of its state and go back to them.  A snapshot is a value of its own:
what happens to the state later does not touch it, and the session goes back to
a copy of it, which can be changed without touching the snapshot it came from.
A snapshot changes only when it is itself reset.

A failure does not end a session.  A machine that has failed can be stepped,
run, reset or restored like any other, and a run in a session starts from the
state that the session has reached.
-/

/-- What can be asked of a session. -/
inductive Operation where
  /-- Take a number of steps, but none after one that fails. -/
  | step (count : Nat)
  | run
  | reset
  /-- Keep a copy of the state. -/
  | snapshot
  /-- Look at a snapshot. -/
  | inspect (index : Nat)
  | resetSnapshot (index : Nat)
  /-- Go back to a snapshot. -/
  | restore (index : Nat)
  deriving DecidableEq

/-- What an operation answers. -/
inductive Reply where
  /-- What each step answered, up to a step that failed. -/
  | answers (values : List Bool)
  /-- A run came to the end of the text. -/
  | finished
  /-- The index of the snapshot just kept. -/
  | kept (index : Nat)
  | shown (state : State)
  | nothing

/-- A reply, and the fault that the operation met if it met one. -/
structure Answer where
  reply : Reply
  fault : Option Fault := none

/-- The machine, the state it has reached, and the snapshots, oldest first. -/
structure Session where
  machine : Machine
  state : State
  snapshots : Array State

namespace Session

/-- A session with a fresh state and no snapshots. -/
def start (machine : Machine) : Session := ⟨machine, .fresh, #[]⟩

/-- Take a number of steps from a state, but none after one that fails. -/
def takeSteps (machine : Machine) : Nat -> State -> List Bool × Finish
  | 0, state => ([], ⟨state, none⟩)
  | count + 1, state =>
    match machine.step state with
    | ⟨next, .ok more⟩ =>
      let later := takeSteps machine count next
      (more :: later.1, later.2)
    | ⟨final, .error fault⟩ => ([], ⟨final, some fault⟩)

/-- Carry out an operation.  There is no answer when a snapshot is asked for
that was never kept, or when a run without a budget takes more than `patience`
steps. -/
def perform (session : Session) (patience : Nat) : Operation -> Option (Answer × Session)
  | .step count =>
    let taken := takeSteps session.machine count session.state
    some (⟨.answers taken.1, taken.2.fault⟩, { session with state := taken.2.state })
  | .run =>
    (session.machine.run patience session.state).map (fun finish =>
      let reply := match finish.fault with
        | none => Reply.finished
        | some _ => Reply.nothing
      (⟨reply, finish.fault⟩, { session with state := finish.state }))
  | .reset => some (⟨.nothing, none⟩, { session with state := session.state.reset })
  | .snapshot =>
    some (⟨.kept session.snapshots.size, none⟩,
      { session with snapshots := session.snapshots.push session.state.snapshot })
  | .inspect index =>
    session.snapshots[index]?.map (fun state => (⟨.shown state, none⟩, session))
  | .resetSnapshot index =>
    session.snapshots[index]?.map (fun state =>
      (⟨.shown state.reset, none⟩,
        { session with snapshots := session.snapshots.setIfInBounds index state.reset }))
  | .restore index =>
    session.snapshots[index]?.map (fun state =>
      (⟨.nothing, none⟩, { session with state := state.snapshot }))

/-- Carry out operations in order.  Each answer comes with the state that the
session has reached after it. -/
def performAll (patience : Nat) (session : Session) :
    List Operation -> Option (List (Answer × State))
  | [] => some []
  | operation :: later =>
    match session.perform patience operation with
    | none => none
    | some (answer, next) =>
      (performAll patience next later).map (fun answers => (answer, next.state) :: answers)

theorem perform_snapshot (session : Session) (patience : Nat) :
    session.perform patience .snapshot =
      some (⟨.kept session.snapshots.size, none⟩,
        { session with snapshots := session.snapshots.push session.state }) := by
  rw [perform, State.snapshot_eq]

theorem perform_reset (session : Session) (patience : Nat) :
    session.perform patience .reset =
      some (⟨.nothing, none⟩, { session with state := .fresh }) := by
  rw [perform, State.reset_eq_fresh]

end Session
end Machine
end LoopTape
