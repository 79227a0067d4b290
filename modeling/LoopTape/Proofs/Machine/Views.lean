import LoopTape.Proofs.Machine.Resuming

namespace LoopTape
namespace Machine

/-!
# One run seen in another

Two machines are often compared by looking at one through the eyes of the other.
A view says how each state and each fault of the first machine appears at the
second.  A step of the first may appear as a step of the second, or it may be
hidden: the first machine moves on in its text, and at the second nothing has
happened.

If each step inside the text of the first machine appears in one of these ways,
then the run of the second machine goes through the run of the first.  It ends
exactly when the first ends and the second goes on from what is seen there.
Nothing has to be asked of the second machine alone, so the first may be the
whole of it or only a beginning.
-/

/-- How the states and the faults of one machine appear at another. -/
structure View where
  state : State -> State
  fault : Fault -> Fault

/-- How a finish appears. -/
def View.finish (view : View) (finish : Finish) : Finish :=
  ⟨view.state finish.state, finish.fault.map view.fault⟩

/-- How a step of the first machine appears at the second. -/
inductive Shown (first second : Machine) (view : View) (state : State) : Prop where
  /-- As a step inside the text of the second machine. -/
  | openly (inside : (view.state state).counter < second.source.length)
      (answers : second.step (view.state state) =
        second.answer (view.finish (first.step state).part))
  /-- Not at all, while the first machine moves on. -/
  | hidden (next : State) (passes : (first.step state).part = ⟨next, none⟩)
      (onward : state.counter < next.counter) (same : view.state next = view.state state)

variable {first second : Machine} {view : View} {part finish : Finish} {state : State}

/-- What the first machine ends with is seen by the second, which then goes on. -/
theorem ends_of_ends_view
    (shown : forall state, state.counter < first.source.length -> Shown first second view state)
    (ends : first.Ends state part) (later : second.EndsAfter (view.finish part) finish) :
    second.Ends (view.state state) finish := by
  apply Ends.along _ ends
  intro state ends back
  by_cases inside : state.counter < first.source.length
  · have after := (ends_inside_iff inside).mp ends
    cases shown state inside with
    | openly _ answers =>
        apply ends_of_answer answers
        rcases moved : (first.step state).part with ⟨next, _ | fault⟩
        · exact (back next inside moved).2
        · rw [moved] at after
          rcases after with ⟨_, same⟩
          rw [Option.some.inj same]
          exact later
    | hidden next passes _ same =>
        rw [← same]
        exact (back next inside passes).2
  · rw [(ends_outside_iff (Nat.le_of_not_lt inside)).mp ends] at later
    exact later

/-- Past the hidden steps of the first machine its text has come to an end or
the next step is seen. -/
theorem exists_past_hidden
    (shown : forall state, state.counter < first.source.length -> Shown first second view state)
    (state : State) :
    Exists fun reached => view.state reached = view.state state ∧
      (forall part, first.Ends reached part -> first.Ends state part) ∧
      (reached.counter < first.source.length ->
        (view.state reached).counter < second.source.length ∧
          second.step (view.state reached) =
            second.answer (view.finish (first.step reached).part)) := by
  induction left : first.source.length - state.counter using Nat.strongRecOn
    generalizing state with
  | ind left inductionHypothesis =>
      by_cases inside : state.counter < first.source.length
      · cases shown state inside with
        | openly within answers =>
            exact ⟨state, rfl, fun _ ends => ends, fun _ => ⟨within, answers⟩⟩
        | hidden next passes onward same =>
            rcases inductionHypothesis (first.source.length - next.counter) (by omega) next rfl with
              ⟨reached, seen, back, openly⟩
            refine ⟨reached, seen.trans same, ?_, openly⟩
            intro part ends
            apply (ends_inside_iff inside).mpr
            rw [passes]
            exact back part ends
      · exact ⟨state, rfl, fun _ ends => ends, fun impossible => absurd impossible inside⟩

/-- The run of the second machine goes through the run of the first. -/
theorem ends_view_iff
    (shown : forall state, state.counter < first.source.length -> Shown first second view state)
    (state : State) (finish : Finish) :
    second.Ends (view.state state) finish ↔
      Exists fun part => first.Ends state part ∧ second.EndsAfter (view.finish part) finish := by
  constructor
  · intro ends
    -- The induction is along the run of the second machine, so every state of the
    -- first that looks like the present one has to be considered.
    refine Ends.along (motive := fun seen => forall origin, view.state origin = seen ->
      Exists fun part => first.Ends origin part ∧ second.EndsAfter (view.finish part) finish)
      ?_ ends state rfl
    intro seen ends back origin looks
    rcases exists_past_hidden shown origin with ⟨reached, same, goesOn, openly⟩
    rw [← looks, ← same] at ends back
    by_cases inside : reached.counter < first.source.length
    · rcases openly inside with ⟨within, answers⟩
      have after := (ends_inside_iff within).mp ends
      have appears : (second.step (view.state reached)).part =
          view.finish (first.step reached).part := by
        rw [answers, part_answer]
      rcases moved : (first.step reached).part with ⟨next, _ | fault⟩
      · rw [moved] at appears
        rcases (back (view.state next) within appears).2 next rfl with ⟨part, nextEnds, later⟩
        refine ⟨part, goesOn part ((ends_inside_iff inside).mpr ?_), later⟩
        rw [moved]
        exact nextEnds
      · refine ⟨⟨next, some fault⟩, goesOn _ ((ends_inside_iff inside).mpr ?_), ?_⟩
        · rw [moved]
          exact ⟨0, rfl⟩
        · rwa [appears, moved] at after
    · exact ⟨⟨reached, none⟩,
        goesOn _ ((ends_outside_iff (Nat.le_of_not_lt inside)).mpr rfl), ends⟩
  · rintro ⟨part, ends, later⟩
    exact ends_of_ends_view shown ends later

/-- If the second machine has nothing behind what it sees of the first, both end
together. -/
theorem ends_view_iff_of_covers
    (shown : forall state, state.counter < first.source.length -> Shown first second view state)
    (covers : forall state, first.source.length ≤ state.counter ->
      second.source.length ≤ (view.state state).counter)
    (state : State) (finish : Finish) :
    second.Ends (view.state state) finish ↔
      Exists fun part => first.Ends state part ∧ finish = view.finish part := by
  have last : forall {part : Finish}, first.Ends state part ->
      (second.EndsAfter (view.finish part) finish ↔ view.finish part = finish) := by
    intro part ends
    apply endsAfter_iff_eq
    intro came
    exact covers _ (ends.behind (Option.map_eq_none_iff.mp came))
  rw [ends_view_iff shown]
  constructor
  · rintro ⟨part, ends, later⟩
    exact ⟨part, ends, ((last ends).mp later).symm⟩
  · rintro ⟨part, ends, same⟩
    exact ⟨part, ends, (last ends).mpr same.symm⟩

end Machine
end LoopTape
