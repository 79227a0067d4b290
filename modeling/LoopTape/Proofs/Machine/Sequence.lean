import LoopTape.Proofs.Bracket.Joining
import LoopTape.Proofs.Machine.Jumps
import LoopTape.Proofs.Machine.Relocating

namespace LoopTape
namespace Machine

open LoopTape.Bracket

/-!
# One text after another

When two texts are written one after the other and the first one can be read, its
run is the beginning of the run of both.  What the first text leaves on the tape,
what it printed and what it counted is where the second one starts.

It is enough that the first text can be read.  A loop of it that were left open
would be ended by a bracket of the second text, and a jump would cross the seam.
The second text may be any text.  A closing bracket of it that finds no partner
fails where it stands, and the loops in front of the seam do not help it.
-/

variable {front : List Char} {limit : Option Nat} {left : State} {finish : Finish}

/-- The same state as the beginning of the next text. -/
def State.rewound (state : State) : State := { state with counter := 0 }

/-- The finish of a text that stands behind `length` other characters. -/
def Finish.behind (finish : Finish) (length : Nat) : Finish :=
  (View.relocate (fun position => length + position)).finish finish

theorem relocate_self (part : Finish) :
    (View.relocate (fun position => position)).finish part = part := by
  rcases part with ⟨state, _ | fault⟩
  · rfl
  · cases fault <;> rfl

theorem relocate_rewound (reached : left.counter = front.length) :
    (View.relocate (fun position => front.length + position)).state left.rewound = left := by
  simp only [View.relocate, State.rewound, Nat.add_zero, ← reached]

/-- A run does not leave its text. -/
theorem Ends.counter_le {machine : Machine} {state : State}
    (ends : machine.Ends state finish) (within : state.counter ≤ machine.source.length) :
    finish.state.counter ≤ machine.source.length := by
  refine Ends.along (motive := fun state => state.counter ≤ machine.source.length ->
    finish.state.counter ≤ machine.source.length) ?_ ends within
  intro state ends back within
  by_cases inside : state.counter < machine.source.length
  · have stays := step_counter_le within
    rw [← part_state] at stays
    rcases moved : (machine.step state).part with ⟨next, _ | fault⟩
    · rw [moved] at stays
      exact (back next inside moved).2 stays
    · have after := (ends_inside_iff inside).mp ends
      rw [moved] at after stays
      rcases after with ⟨_, same⟩
      rw [← Option.some.inj same]
      exact stays
  · rw [(ends_outside_iff (Nat.le_of_not_lt inside)).mp ends]
    exact within

/-- The run of both texts goes through the run of the first. -/
theorem ends_append_iff (terminated : Terminated front) (back : List Char) :
    (Machine.mk (front ++ back) limit).Ends .fresh finish ↔
      Exists fun part => (Machine.mk front limit).Ends .fresh part ∧
        (Machine.mk (front ++ back) limit).EndsAfter part finish := by
  have through := ends_relocate_iff (relocation_front terminated back) limit .fresh finish
  simp only [relocate_self] at through
  exact through

/-- From the end of the first text both texts go on like the second alone. -/
theorem endsAfter_append_iff (terminated : Terminated front) (back : List Char)
    (ends : (Machine.mk front limit).Ends .fresh ⟨left, none⟩) :
    (Machine.mk (front ++ back) limit).EndsAfter ⟨left, none⟩ finish ↔
      Exists fun rest => (Machine.mk back limit).Ends left.rewound rest ∧
        finish = rest.behind front.length := by
  have reached : left.counter = front.length :=
    Nat.le_antisymm (ends.counter_le (Nat.zero_le _)) (ends.behind rfl)
  have seen := ends_relocate_iff_of_covers (relocation_back terminated back)
    (fun position outside => by rw [List.length_append]; omega) limit left.rewound finish
  rw [relocate_rewound reached] at seen
  exact seen

theorem ends_append_of_ends_iff (terminated : Terminated front) (back : List Char)
    (ends : (Machine.mk front limit).Ends .fresh ⟨left, none⟩) (finish : Finish) :
    (Machine.mk (front ++ back) limit).Ends .fresh finish ↔
      Exists fun rest => (Machine.mk back limit).Ends left.rewound rest ∧
        finish = rest.behind front.length := by
  rw [ends_append_iff terminated, ← endsAfter_append_iff terminated back ends]
  constructor
  · rintro ⟨part, partEnds, later⟩
    rwa [partEnds.unique ends] at later
  · intro later
    exact ⟨_, ends, later⟩

/-- Two texts in a row, the first of which can be read, are run one after the
other.  If the run of the first comes to its end, both together go on like the
second alone from there, and everything is reported further behind by the length
of the first.  If it fails, both fail in the same way, and if it never ends, both
never end. -/
theorem texts_run_one_after_another {front : List Char} {tree : Tree}
    (reads : Tree.read front = .ok tree) (back : List Char) (limit : Option Nat) :
    (forall patience left,
      (Machine.mk front limit).execute patience = some ⟨left, none⟩ ->
        (forall finish,
          (Exists fun patience =>
              (Machine.mk (front ++ back) limit).execute patience = some finish) ↔
            Exists fun rest =>
              (Exists fun patience =>
                (Machine.mk back limit).run patience left.rewound = some rest) ∧
                finish = rest.behind front.length) ∧
        ((forall patience, (Machine.mk (front ++ back) limit).execute patience = none) ↔
          forall patience, (Machine.mk back limit).run patience left.rewound = none)) ∧
    (forall patience left fault,
      (Machine.mk front limit).execute patience = some ⟨left, some fault⟩ ->
        Exists fun patience =>
          (Machine.mk (front ++ back) limit).execute patience = some ⟨left, some fault⟩) ∧
    ((forall patience, (Machine.mk front limit).execute patience = none) ->
      forall patience, (Machine.mk (front ++ back) limit).execute patience = none) := by
  rcases (Tree.read_eq_ok_iff front tree).mp reads with ⟨canonical, same⟩
  have terminated : Terminated front := same ▸ canonical.terminated
  simp only [exists_run_iff_ends, exists_execute_iff_ends, forall_run_eq_none_iff,
    forall_execute_eq_none_iff]
  refine ⟨?_, ?_, ?_⟩
  · intro patience left finished
    have ends := (exists_execute_iff_ends _ _).mp ⟨patience, finished⟩
    have alike := ends_append_of_ends_iff terminated back ends
    refine ⟨alike, ?_, ?_⟩
    · intro never rest restEnds
      exact never _ ((alike _).mpr ⟨rest, restEnds, rfl⟩)
    · intro never finish bothEnd
      rcases (alike finish).mp bothEnd with ⟨rest, restEnds, _⟩
      exact never rest restEnds
  · intro patience left fault finished
    have ends := (exists_execute_iff_ends _ _).mp ⟨patience, finished⟩
    exact (ends_append_iff terminated back).mpr ⟨_, ends, 0, rfl⟩
  · intro never finish ends
    rcases (ends_append_iff terminated back).mp ends with ⟨part, partEnds, _⟩
    exact never part partEnds

/-- The loop and the closing bracket in front do not give a partner to the closing
bracket behind them. -/
theorem stray_bracket_behind_read_text :
    Tree.read ['[', ']', ']'] = .ok (.loop .nil (.leaf [']'] .nil)) ∧
      (Machine.mk ['[', ']', ']'] none).execute 2 = some ⟨⟨Tape.blank, 3, #[], 2⟩, none⟩ ∧
      Exists fun patience =>
        (Machine.mk (['[', ']', ']'] ++ ['+', ']']) none).execute patience =
          some ⟨⟨Tape.blank.increment, 4, #[], 4⟩, some (.unmatched 4)⟩ := by
  have canonical : (Tree.loop .nil (.leaf [']'] .nil)).Canonical :=
    ⟨trivial, ⟨']', rfl, by decide⟩, trivial⟩
  have reads : Tree.read ['[', ']', ']'] = .ok (.loop .nil (.leaf [']'] .nil)) :=
    Tree.read_text canonical
  have zero : Tape.blank.cell = 0 := fresh_cell
  have skips : landing ['[', ']', ']'] .loopStart Tape.blank.cell 0 = .ok 2 := by
    rw [zero]
    rfl
  have passes : landing ['[', ']', ']'] .loopStop Tape.blank.cell 2 = .ok 3 := by
    rw [zero]
    rfl
  have lost : landing ['+', ']'] .loopStop Tape.blank.increment.cell 1 =
      .error (.unmatched 1) := by
    rw [blank_increment_cell]
    rfl
  have first : (Machine.mk ['[', ']', ']'] none).step .fresh =
      ⟨⟨Tape.blank, 2, #[], 1⟩, .ok true⟩ :=
    @step_landed ⟨['[', ']', ']'], none⟩ .fresh '[' .loopStart rfl rfl rfl _ skips
  have second : (Machine.mk ['[', ']', ']'] none).step ⟨Tape.blank, 2, #[], 1⟩ =
      ⟨⟨Tape.blank, 3, #[], 2⟩, .ok false⟩ :=
    @step_landed ⟨['[', ']', ']'], none⟩ ⟨_, 2, _, _⟩ ']' .loopStop rfl rfl rfl _ passes
  have front : (Machine.mk ['[', ']', ']'] none).execute 2 =
      some ⟨⟨Tape.blank, 3, #[], 2⟩, none⟩ := by
    change (Machine.mk ['[', ']', ']'] none).runFor 2 .fresh = _
    simp only [runFor, first, second]
  have third : (Machine.mk ['+', ']'] none).step ⟨Tape.blank, 0, #[], 2⟩ =
      ⟨⟨Tape.blank.increment, 1, #[], 3⟩, .ok true⟩ := rfl
  have fourth : (Machine.mk ['+', ']'] none).step ⟨Tape.blank.increment, 1, #[], 3⟩ =
      ⟨⟨Tape.blank.increment, 1, #[], 4⟩, .error (.unmatched 1)⟩ :=
    @step_stranded ⟨['+', ']'], none⟩ ⟨_, 1, _, _⟩ ']' .loopStop rfl rfl rfl _ lost
  have back : (Machine.mk ['+', ']'] none).run 2 ⟨Tape.blank, 0, #[], 2⟩ =
      some ⟨⟨Tape.blank.increment, 1, #[], 4⟩, some (.unmatched 1)⟩ := by
    change (Machine.mk ['+', ']'] none).runFor 2 _ = _
    simp only [runFor, third, fourth]
  rcases texts_run_one_after_another reads ['+', ']'] none with ⟨onward, _, _⟩
  exact ⟨reads, front, ((onward 2 _ front).1 _).mpr ⟨_, ⟨2, back⟩, rfl⟩⟩

end Machine
end LoopTape
