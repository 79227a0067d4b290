import LoopTape.Proofs.Machine.Ending

namespace LoopTape
namespace Machine

/-!
# Parts of runs

A run can be cut into parts.  A part that came through hands its state to what
comes next, and a part that met a fault is the end of everything.  A single step
is a part as well, although it answers in another form, since it also says
whether more text follows.

Two statements relate a part to the run that it is cut from, one for each way
of reading them.  If a run goes on from a part to some finish, then the run from
the state in front of the part ends with this finish.  And if a run with a
number of allowed steps ends with a finish, then it goes on from its first step
to the same finish with no more steps than that.
-/

/-- A part, and after it what comes next unless the part met a fault. -/
def Finish.andThen (part : Finish) (next : State -> Option Finish) : Option Finish :=
  match part.fault with
  | none => next part.state
  | some _ => some part

/-- What a step answers whose part of the run this is. -/
def answer (machine : Machine) (part : Finish) : Turn :=
  match part.fault with
  | none => machine.advance part.state part.state.counter
  | some fault => ⟨part.state, .error fault⟩

/-- The part of a run that a step is. -/
def Turn.part (turn : Turn) : Finish :=
  match turn.outcome with
  | .ok _ => ⟨turn.state, none⟩
  | .error fault => ⟨turn.state, some fault⟩

/-- The run goes on from a part to the given finish. -/
def EndsAfter (machine : Machine) (part finish : Finish) : Prop :=
  Exists fun allowed => part.andThen (machine.runFor allowed) = some finish

/-- A run that ends with the finish in the allowed number of steps can begin with
this part: the part exists, and what is left of the run is not longer. -/
def Begins (machine : Machine) (part? : Option Finish) (allowed : Nat) (finish : Finish) : Prop :=
  Exists fun part => Exists fun fewer => part? = some part ∧ fewer ≤ allowed ∧
    part.andThen (machine.runFor fewer) = some finish

variable {machine : Machine} {state : State} {part finish : Finish} {allowed : Nat}

theorem runFor_outside (outside : machine.source.length ≤ state.counter) :
    machine.runFor (allowed + 1) state = some ⟨state, none⟩ := by
  simp only [runFor, step_outside outside]

theorem runFor_inside {next : State} (answers : machine.step state = machine.answer ⟨next, none⟩)
    (inside : next.counter < machine.source.length) :
    machine.runFor (allowed + 1) state = machine.runFor allowed next := by
  simp only [runFor, answers, answer, advance, inside, decide_true]

theorem runFor_last {next : State} (answers : machine.step state = machine.answer ⟨next, none⟩)
    (outside : machine.source.length ≤ next.counter) :
    machine.runFor (allowed + 1) state = some ⟨next, none⟩ := by
  simp only [runFor, answers, answer, advance, Nat.not_lt_of_le outside, decide_false]

/-! ## A step as a part -/

theorem runFor_of_answer (answers : machine.step state = machine.answer part)
    (later : part.andThen (machine.runFor allowed) = some finish) :
    machine.runFor (allowed + 1) state = some finish := by
  rcases part with ⟨next, _ | fault⟩
  · by_cases inside : next.counter < machine.source.length
    · simp only [runFor, answers, answer, advance, inside, decide_true]
      exact later
    · cases allowed with
      | zero => cases later
      | succ allowed =>
          have ended : machine.runFor (allowed + 1) next = some finish := later
          rw [runFor_outside (Nat.le_of_not_lt inside)] at ended
          simp only [runFor, answers, answer, advance, inside, decide_false]
          exact ended
  · simp only [runFor, answers, answer]
    exact later

theorem ends_of_answer (answers : machine.step state = machine.answer part)
    (later : machine.EndsAfter part finish) : machine.Ends state finish := by
  rcases later with ⟨allowed, later⟩
  exact ⟨allowed + 1, runFor_of_answer answers later⟩

/-- A run goes on from its first step, and with fewer steps unless this step
left the text. -/
theorem andThen_of_answer (answers : machine.step state = machine.answer part)
    (finished : machine.runFor allowed state = some finish) :
    Exists fun fewer => fewer ≤ allowed ∧ part.andThen (machine.runFor fewer) = some finish ∧
      (part.state.counter < machine.source.length -> fewer < allowed) := by
  cases allowed with
  | zero => cases finished
  | succ allowed =>
      rcases part with ⟨next, _ | fault⟩
      · by_cases inside : next.counter < machine.source.length
        · simp only [runFor, answers, answer, advance, inside, decide_true] at finished
          exact ⟨allowed, Nat.le_succ _, finished, fun _ => Nat.lt_succ_self _⟩
        · simp only [runFor, answers, answer, advance, inside, decide_false] at finished
          refine ⟨allowed + 1, Nat.le_refl _, ?_, fun impossible => absurd impossible inside⟩
          rw [← finished]
          exact runFor_outside (Nat.le_of_not_lt inside)
      · simp only [runFor, answers, answer] at finished
        exact ⟨allowed, Nat.le_succ _, finished, fun _ => Nat.lt_succ_self _⟩

/-! ## Runs along their steps -/

theorem part_answer : (machine.answer part).part = part := by
  rcases part with ⟨state, _ | fault⟩
  · rfl
  · rfl

theorem part_state (turn : Turn) : turn.part.state = turn.state := by
  rcases turn with ⟨state, fault | more⟩
  · rfl
  · rfl

/-- Inside the text the part tells everything about the step. -/
theorem step_eq_answer_part (inside : state.counter < machine.source.length) :
    machine.step state = machine.answer (machine.step state).part := by
  cases stepKind machine state with
  | outside past => exact absurd inside (Nat.not_lt_of_le past)
  | comment character found comment =>
      rw [step_comment found comment]
      rfl
  | refused character instruction fault found reads refused =>
      rw [step_refused found reads refused]
      rfl
  | stranded character instruction fault found reads allowed stranded =>
      rw [step_stranded found reads allowed stranded]
      rfl
  | landed character instruction next found reads allowed landed =>
      rw [step_landed found reads allowed landed]
      rfl

theorem ends_outside_iff (outside : machine.source.length ≤ state.counter) :
    machine.Ends state finish ↔ finish = ⟨state, none⟩ := by
  have ended : machine.Ends state ⟨state, none⟩ := ⟨1, runFor_outside outside⟩
  constructor
  · intro ends
    exact ends.unique ended
  · intro same
    exact same ▸ ended

theorem ends_inside_iff (inside : state.counter < machine.source.length) :
    machine.Ends state finish ↔ machine.EndsAfter (machine.step state).part finish := by
  constructor
  · rintro ⟨allowed, finished⟩
    rcases andThen_of_answer (step_eq_answer_part inside) finished with ⟨fewer, _, later, _⟩
    exact ⟨fewer, later⟩
  · exact ends_of_answer (step_eq_answer_part inside)

/-- What holds of a state whenever it holds of the state after its step holds of
every state from which the run ends. -/
theorem Ends.along {motive : State -> Prop}
    (back : forall state, machine.Ends state finish ->
      (forall next, state.counter < machine.source.length ->
        (machine.step state).part = ⟨next, none⟩ -> machine.Ends next finish ∧ motive next) ->
      motive state)
    (ends : machine.Ends state finish) : motive state := by
  rcases ends with ⟨allowed, finished⟩
  induction allowed generalizing state with
  | zero => cases finished
  | succ allowed inductionHypothesis =>
      apply back state ⟨_, finished⟩
      intro next inside passes
      have answers := step_eq_answer_part inside
      rw [passes] at answers
      by_cases within : next.counter < machine.source.length
      · simp only [runFor, answers, answer, advance, within, decide_true] at finished
        exact ⟨⟨_, finished⟩, inductionHypothesis finished⟩
      · -- The run stops here without asking for another step, which would change nothing.
        have past := Nat.le_of_not_lt within
        have ended := (ends_inside_iff inside).mp ⟨_, finished⟩
        rw [passes] at ended
        refine ⟨ended, back next ended ?_⟩
        intro later impossible
        exact absurd impossible within

/-- A run that meets no fault ends behind its text. -/
theorem Ends.behind (ends : machine.Ends state finish) (came : finish.fault = none) :
    machine.source.length ≤ finish.state.counter := by
  apply Ends.along _ ends
  intro state ends back
  by_cases inside : state.counter < machine.source.length
  · rcases moved : (machine.step state).part with ⟨next, _ | fault⟩
    · exact (back next inside moved).2
    · have after := (ends_inside_iff inside).mp ends
      rw [moved] at after
      rcases after with ⟨_, same⟩
      rw [← Option.some.inj same] at came
      cases came
  · have outside := Nat.le_of_not_lt inside
    rw [(ends_outside_iff outside).mp ends]
    exact outside

/-- Behind a part that came to the end of the text nothing more happens. -/
theorem endsAfter_iff_eq
    (last : part.fault = none -> machine.source.length ≤ part.state.counter) :
    machine.EndsAfter part finish ↔ part = finish := by
  rcases part with ⟨left, _ | fault⟩
  · have ended : machine.runFor 1 left = some ⟨left, none⟩ := runFor_outside (last rfl)
    constructor
    · intro ends
      exact Ends.unique ⟨1, ended⟩ ends
    · intro same
      exact ⟨1, same ▸ ended⟩
  · constructor
    · rintro ⟨_, ends⟩
      exact Option.some.inj ends
    · intro same
      exact ⟨0, congrArg some same⟩

/-! ## Parts in a row -/

theorem andThen_cases {first : Finish} {next : State -> Option Finish}
    (joined : first.andThen next = some part) :
    (first = part ∧ part.fault ≠ none) ∨
      Exists fun passed => first = ⟨passed, none⟩ ∧ next passed = some part := by
  rcases first with ⟨passed, _ | fault⟩
  · exact Or.inr ⟨passed, rfl, joined⟩
  · refine Or.inl ⟨Option.some.inj joined, ?_⟩
    rw [← Option.some.inj joined]
    intro impossible
    cases impossible

theorem bind_andThen_cases {part? : Option Finish} {next : State -> Option Finish}
    (joined : part?.bind (fun part => part.andThen next) = some part) :
    (part? = some part ∧ part.fault ≠ none) ∨
      Exists fun passed => part? = some ⟨passed, none⟩ ∧ next passed = some part := by
  rcases Option.bind_eq_some_iff.mp joined with ⟨first, same, onward⟩
  rcases andThen_cases onward with ⟨last, failed⟩ | ⟨passed, passes, behind⟩
  · exact Or.inl ⟨last ▸ same, failed⟩
  · exact Or.inr ⟨passed, passes ▸ same, behind⟩

theorem andThen_mono {first : Finish} {next later : State -> Option Finish}
    (larger : forall left part, next left = some part -> later left = some part)
    (joined : first.andThen next = some part) : first.andThen later = some part := by
  rcases first with ⟨left, _ | fault⟩
  · exact larger left part joined
  · exact joined

theorem bind_andThen_mono {part? larger? : Option Finish} {next later : State -> Option Finish}
    (started : forall first, part? = some first -> larger? = some first)
    (larger : forall left part, next left = some part -> later left = some part)
    (joined : part?.bind (fun part => part.andThen next) = some part) :
    larger?.bind (fun part => part.andThen later) = some part := by
  rcases Option.bind_eq_some_iff.mp joined with ⟨first, same, onward⟩
  exact Option.bind_eq_some_iff.mpr ⟨first, started first same, andThen_mono larger onward⟩

/-- To go on from a part it is enough to go on from what comes next. -/
theorem endsAfter_of_andThen {first : Finish} {next : State -> Option Finish}
    (joined : first.andThen next = some part) (later : machine.EndsAfter part finish)
    (onward : forall left, first = ⟨left, none⟩ -> next left = some part ->
      machine.Ends left finish) : machine.EndsAfter first finish := by
  rcases first with ⟨left, _ | fault⟩
  · exact onward left rfl joined
  · rw [Option.some.inj joined]
    exact later

theorem begins_of_andThen {first : Finish} {next : State -> Option Finish}
    (resumed : first.andThen (machine.runFor allowed) = some finish)
    (onward : forall left, first = ⟨left, none⟩ -> machine.runFor allowed left = some finish ->
      machine.Begins (next left) allowed finish) :
    machine.Begins (first.andThen next) allowed finish := by
  rcases first with ⟨left, _ | fault⟩
  · exact onward left rfl resumed
  · exact ⟨_, allowed, rfl, Nat.le_refl _, resumed⟩

theorem Begins.mono {part? : Option Finish} {fewer : Nat}
    (begins : machine.Begins part? fewer finish) (enough : fewer ≤ allowed) :
    machine.Begins part? allowed finish := by
  rcases begins with ⟨part, steps, same, bounded, later⟩
  exact ⟨part, steps, same, Nat.le_trans bounded enough, later⟩

theorem Begins.bind {part? : Option Finish} {next : State -> Option Finish}
    (begins : machine.Begins part? allowed finish)
    (onward : forall left fewer, part? = some ⟨left, none⟩ -> fewer ≤ allowed ->
      machine.runFor fewer left = some finish -> machine.Begins (next left) fewer finish) :
    machine.Begins (part?.bind (fun part => part.andThen next)) allowed finish := by
  rcases begins with ⟨first, fewer, same, bounded, resumed⟩
  have joined : machine.Begins (first.andThen next) fewer finish := by
    apply begins_of_andThen resumed
    intro left passes continued
    exact onward left fewer (passes ▸ same) bounded continued
  rw [same]
  exact joined.mono bounded

end Machine
end LoopTape
