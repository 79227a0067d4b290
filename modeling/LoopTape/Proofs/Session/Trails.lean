import LoopTape.Proofs.Session.Reaching

namespace LoopTape
namespace Machine

/-!
# Sessions repeat a fresh machine

Keeping states, resetting them and putting them back never makes a behaviour that a
fresh machine does not have.  Every state of a session is one that a fresh machine
comes to after some number of calls for a step, and from there the session answers
as the fresh machine does from that call on: with the same values, the same failures
and the same states.  Calls that failed are calls like any other, so this holds behind
a failure too.

A snapshot is not touched by what is done with the state it came from, nor by what is
done with a state that was put back from it.  Only its own reset changes it.
-/

namespace Session

variable {machine : Machine} {session next : Session} {answer : Answer} {patience : Nat}

/-! ## Calls one by one -/

/-- What a single call for a step answers, with the state that it leaves. -/
def callAnswer (turn : Turn) : Answer × State :=
  match turn.outcome with
  | .ok more => (⟨.answers [more], none⟩, turn.state)
  | .error fault => (⟨.answers [], some fault⟩, turn.state)

theorem perform_step_one (session : Session) (patience : Nat) :
    session.perform patience (.step 1) =
      some ((callAnswer (session.machine.step session.state)).1,
        { session with state := (session.machine.step session.state).state }) := by
  rcases moved : session.machine.step session.state with ⟨left, fault | more⟩
  · simp only [perform, takeSteps, moved, callAnswer]
  · simp only [perform, takeSteps, moved, callAnswer]

theorem callAnswer_snd (turn : Turn) : (callAnswer turn).2 = turn.state := by
  rcases turn with ⟨state, fault | more⟩ <;> rfl

/-- Each of a number of calls is answered from the state that the calls before it left. -/
theorem performAll_calls (session : Session) (patience count : Nat) :
    session.performAll patience (List.replicate count (.step 1)) =
      some ((List.range count).map (fun index =>
        callAnswer (session.machine.step (session.machine.after index session.state)))) := by
  induction count generalizing session with
  | zero => rfl
  | succ count inductionHypothesis =>
      rw [List.replicate_succ, performAll, perform_step_one]
      dsimp only
      rw [inductionHypothesis, List.range_succ_eq_map, List.map_cons, List.map_map, Option.map_some,
        ← callAnswer_snd]
      congr 2
      apply List.map_congr_left
      intro index _
      rw [Function.comp_apply, Nat.succ_eq_add_one, after, callAnswer_snd]

/-- From the state that a fresh machine has after some calls, a session is answered as
the fresh machine is from the next call on. -/
theorem performAll_calls_of_after {passed : Nat}
    (reached : session.state = session.machine.after passed .fresh) (patience count : Nat) :
    session.performAll patience (List.replicate count (.step 1)) =
      ((Session.start session.machine).performAll patience
        (List.replicate (passed + count) (.step 1))).map (List.drop passed) := by
  rw [performAll_calls, performAll_calls, Option.map_some, List.range_add, List.map_append,
    List.drop_left' (by rw [List.length_map, List.length_range]), List.map_map, reached]
  congr 1
  apply List.map_congr_left
  intro index _
  rw [← after_add]
  rfl

/-! ## Snapshots -/

/-- An operation leaves a snapshot as it is, unless it resets this very snapshot. -/
theorem getElem?_snapshots_perform {operation : Operation}
    (answered : session.perform patience operation = some (answer, next)) {index : Nat}
    (kept : index < session.snapshots.size) :
    next.snapshots[index]? =
      if operation = .resetSnapshot index then some State.fresh else session.snapshots[index]? := by
  cases operation with
  | step count =>
      cases answered
      rfl
  | run =>
      rcases Option.map_eq_some_iff.mp answered with ⟨finish, _, same⟩
      cases same
      rfl
  | reset =>
      cases answered
      rfl
  | snapshot =>
      rw [perform_snapshot] at answered
      cases answered
      rw [if_neg (by intro impossible; cases impossible), Array.getElem?_push,
        if_neg (Nat.ne_of_lt kept)]
  | inspect other =>
      rcases Option.map_eq_some_iff.mp answered with ⟨state, _, same⟩
      cases same
      rfl
  | resetSnapshot other =>
      rcases Option.map_eq_some_iff.mp answered with ⟨state, _, same⟩
      rw [State.reset_eq_fresh] at same
      cases same
      by_cases same : other = index
      · rw [if_pos (by rw [same]), same]
        exact Array.getElem?_setIfInBounds_self_of_lt kept
      · have apart : Operation.resetSnapshot other ≠ .resetSnapshot index := by
          intro impossible
          exact same (Operation.resetSnapshot.inj impossible)
        rw [if_neg apart]
        exact Array.getElem?_setIfInBounds_ne same
  | restore other =>
      rcases Option.map_eq_some_iff.mp answered with ⟨state, _, same⟩
      cases same
      rfl

/-! ## Any session -/

/-- Whatever has been done in a session, its states are those that a fresh machine has
after some number of calls for a step, and a snapshot is changed by its own reset only.
Behind a reset the session answers as a fresh machine does.  Behind the return to a
snapshot it answers as the fresh machine does behind the calls that led there. -/
theorem sessions_repeat_fresh_calls (machine : Machine) (session : Session)
    (reached : Reached machine session) :
    (Exists fun passed => session.state = machine.after passed .fresh) ∧
    (forall snapshot, snapshot ∈ session.snapshots ->
      Exists fun passed => snapshot = machine.after passed .fresh) ∧
    (forall patience operation answer next,
      session.perform patience operation = some (answer, next) ->
        forall index, index < session.snapshots.size ->
          next.snapshots[index]? =
            if operation = .resetSnapshot index then some State.fresh
            else session.snapshots[index]?) ∧
    (forall patience, Exists fun next =>
      session.perform patience .reset = some (⟨.nothing, none⟩, next) ∧
        forall patience count,
          next.performAll patience (List.replicate count (.step 1)) =
            (Session.start machine).performAll patience (List.replicate count (.step 1))) ∧
    forall index snapshot, session.snapshots[index]? = some snapshot ->
      forall patience, Exists fun next =>
        session.perform patience (.restore index) = some (⟨.nothing, none⟩, next) ∧
          forall passed, snapshot = machine.after passed .fresh ->
            forall patience count,
              next.performAll patience (List.replicate count (.step 1)) =
                ((Session.start machine).performAll patience
                  (List.replicate (passed + count) (.step 1))).map (List.drop passed) := by
  have same := reached.machine_eq
  have trail := reached.onTrail
  rw [← same]
  refine ⟨trail.state, trail.snapshots, ?_, ?_, ?_⟩
  · intro patience operation answer next answered index kept
    exact getElem?_snapshots_perform answered kept
  · intro patience
    refine ⟨_, perform_reset session patience, fun later count => ?_⟩
    rw [performAll_calls, performAll_calls]
    rfl
  · intro index snapshot found patience
    refine ⟨{ session with state := snapshot }, ?_, ?_⟩
    · rw [perform, found, Option.map_some, State.snapshot_eq]
    · intro passed left later count
      exact @performAll_calls_of_after { session with state := snapshot } passed left later count

/-- The state behind a failed call is kept and put back after a reset.  The third
instruction of the budget is left for the bracket, and then none is. -/
theorem calls_behind_stray_bracket :
    Exists fun session => Reached ⟨['+', ']'], some 3⟩ session ∧
      session.state = .fresh ∧ session.snapshots = #[⟨Tape.blank.increment, 1, #[], 2⟩] ∧
      Exists fun next =>
        session.perform 0 (.restore 0) = some (⟨.nothing, none⟩, next) ∧
          next.performAll 0 [.step 1, .step 1] =
            ((Session.start ⟨['+', ']'], some 3⟩).performAll 0
              (List.replicate 4 (.step 1))).map (List.drop 2) ∧
          next.performAll 0 [.step 1, .step 1] = some
            [(⟨.answers [], some (.unmatched 1)⟩, ⟨Tape.blank.increment, 1, #[], 3⟩),
              (⟨.answers [], some (.overBudget 3 3)⟩, ⟨Tape.blank.increment, 1, #[], 3⟩)] := by
  have lost : landing ['+', ']'] .loopStop Tape.blank.increment.cell 1 =
      .error (.unmatched 1) := by
    rw [blank_increment_cell]
    rfl
  have first : (Machine.mk ['+', ']'] (some 3)).step .fresh =
      ⟨⟨Tape.blank.increment, 1, #[], 1⟩, .ok true⟩ := rfl
  have second : (Machine.mk ['+', ']'] (some 3)).step ⟨Tape.blank.increment, 1, #[], 1⟩ =
      ⟨⟨Tape.blank.increment, 1, #[], 2⟩, .error (.unmatched 1)⟩ :=
    @step_stranded ⟨['+', ']'], some 3⟩ ⟨_, 1, _, _⟩ ']' .loopStop rfl rfl rfl _ lost
  have third : (Machine.mk ['+', ']'] (some 3)).step ⟨Tape.blank.increment, 1, #[], 2⟩ =
      ⟨⟨Tape.blank.increment, 1, #[], 3⟩, .error (.unmatched 1)⟩ :=
    @step_stranded ⟨['+', ']'], some 3⟩ ⟨_, 1, _, _⟩ ']' .loopStop rfl rfl rfl _ lost
  have fourth : (Machine.mk ['+', ']'] (some 3)).step ⟨Tape.blank.increment, 1, #[], 3⟩ =
      ⟨⟨Tape.blank.increment, 1, #[], 3⟩, .error (.overBudget 3 3)⟩ := rfl
  have left : State.mk Tape.blank.increment 1 #[] 2 =
      (Machine.mk ['+', ']'] (some 3)).after 2 .fresh := by
    simp only [after, first, second]
  have kept := (Reached.start.perform (perform_stray_bracket 1)).perform (perform_snapshot _ 0)
  have reached := kept.perform (perform_reset _ 0)
  rcases sessions_repeat_fresh_calls _ _ reached with ⟨_, _, _, _, behind⟩
  rcases behind 0 ⟨Tape.blank.increment, 1, #[], 2⟩ rfl 0 with ⟨next, restored, repeated⟩
  have state : next = ⟨⟨['+', ']'], some 3⟩, ⟨Tape.blank.increment, 1, #[], 2⟩,
      #[⟨Tape.blank.increment, 1, #[], 2⟩]⟩ := (congrArg Prod.snd (Option.some.inj restored)).symm
  refine ⟨_, reached, rfl, rfl, next, restored, repeated 2 left 0 2, ?_⟩
  rw [state]
  simp only [performAll, perform, takeSteps, third, fourth, Option.map_some]

end Session
end Machine
end LoopTape
