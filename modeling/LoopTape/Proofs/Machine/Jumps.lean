import LoopTape.Proofs.Bracket.Partners
import LoopTape.Proofs.Machine.Stepping

namespace LoopTape
namespace Machine

open LoopTape.Bracket

/-!
# Jumps follow the matching

A machine looks for the partner of a bracket each time it has to jump, by
walking over the text.  One pass over the text with a stack gives all pairs at
once.  The main statement says that the two agree on every text, balanced or
not, and that a step therefore goes where the table of pairs sends it: just past
the partner when a jump is due and there is one, nowhere when a jump is due and
there is none, and to the next character in every other case.
-/

/-- The partner of the bracket at a position, by the table of pairs. -/
def partner? (source : List Char) (position : Nat) : Option Nat :=
  match source[position]? with
  | some '[' => closingPartner? source position
  | some ']' => openingPartner? source position
  | _ => none

/-- The counter stands on a bracket that the cell does not let pass. -/
def JumpDue (source : List Char) (state : State) : Prop :=
  (source[state.counter]? = some '[' ∧ state.tape.cell = 0) ∨
    (source[state.counter]? = some ']' ∧ state.tape.cell ≠ 0)

/-- What stands under the counter is not refused: comments are free, and an
instruction needs a budget that is not used up. -/
def WithinBudget (machine : Machine) (state : State) : Prop :=
  forall character budget, machine.source[state.counter]? = some character ->
    Instruction.isCode character = true -> machine.limit = some budget -> state.steps < budget

/-- The turn did not fail and left the counter at the target. -/
def Turn.MovesTo (turn : Turn) (source : List Char) (target : Nat) : Prop :=
  turn.outcome = .ok (decide (target < source.length)) ∧ turn.state.counter = target

theorem Turn.MovesTo.target_unique {turn : Turn} {source : List Char} {first second : Nat}
    (toFirst : turn.MovesTo source first) (toSecond : turn.MovesTo source second) :
    first = second :=
  toFirst.2.symm.trans toSecond.2

theorem partner?_ne_self {source : List Char} {position partner : Nat}
    (found : partner? source position = some partner) : partner ≠ position := by
  unfold partner? at found
  split at found
  · have encloses := (closingPartner?_eq_some_iff _ _ _).mp found
    exact Nat.ne_of_gt encloses.ordered
  · have encloses := (openingPartner?_eq_some_iff _ _ _).mp found
    exact Nat.ne_of_lt encloses.ordered
  · cases found

/-! ## Where an instruction lands -/

theorem landing_of_jumpDue {source : List Char} {state : State} {character : Char}
    {instruction : Instruction} (found : source[state.counter]? = some character)
    (reads : Instruction.ofChar? character = some instruction) (due : JumpDue source state) :
    landing source instruction state.tape.cell state.counter =
      match partner? source state.counter with
      | some partner => .ok (partner + 1)
      | none => .error (.unmatched state.counter) := by
  rcases due with ⟨opens, zero⟩ | ⟨closes, nonzero⟩
  · have same : character = '[' := Option.some.inj (found.symm.trans opens)
    rw [same] at reads
    cases reads
    cases matched : closingPartner? source state.counter with
    | none =>
        simp only [landing, partner?, opens, if_pos zero, loopEnd?_eq_closingPartner? opens, matched]
    | some partner =>
        simp only [landing, partner?, opens, if_pos zero, loopEnd?_eq_closingPartner? opens, matched]
  · have same : character = ']' := Option.some.inj (found.symm.trans closes)
    rw [same] at reads
    cases reads
    cases matched : openingPartner? source state.counter with
    | none =>
        simp only [landing, partner?, closes, if_neg nonzero,
          loopBegin?_eq_openingPartner? closes, matched]
    | some partner =>
        simp only [landing, partner?, closes, if_neg nonzero,
          loopBegin?_eq_openingPartner? closes, matched]

theorem landing_of_not_jumpDue {source : List Char} {state : State} {character : Char}
    {instruction : Instruction} (found : source[state.counter]? = some character)
    (reads : Instruction.ofChar? character = some instruction) (passes : ¬ JumpDue source state) :
    landing source instruction state.tape.cell state.counter = .ok (state.counter + 1) := by
  have written := (Instruction.ofChar?_eq_some_iff _ _).mp reads
  rw [written] at found
  cases instruction with
  | loopStart =>
      have nonzero : state.tape.cell ≠ 0 := fun zero => passes (Or.inl ⟨found, zero⟩)
      simp only [landing, if_neg nonzero]
  | loopStop =>
      by_cases zero : state.tape.cell = 0
      · simp only [landing, if_pos zero]
      · exact absurd (Or.inr ⟨found, zero⟩) passes
  | increment => rfl
  | decrement => rfl
  | left => rfl
  | right => rfl
  | input => rfl
  | print => rfl

/-- An instruction lands inside its text or just behind it. -/
theorem landing_le_length {source : List Char} {position next : Nat}
    (inside : position < source.length) {instruction : Instruction} {cell : UInt8}
    (landed : landing source instruction cell position = .ok next) : next ≤ source.length := by
  have onward : landing source instruction cell position = .ok (position + 1) ->
      next ≤ source.length := by
    intro same
    rw [same] at landed
    cases landed
    exact inside
  cases instruction with
  | loopStart =>
      by_cases zero : cell = 0
      · cases matched : loopEnd? source position with
        | none =>
            simp only [landing, if_pos zero, matched] at landed
            cases landed
        | some stop =>
            simp only [landing, if_pos zero, matched] at landed
            cases landed
            exact ((loopEnd?_eq_some_iff source position stop).mp matched).2.1
      · exact onward (if_neg zero)
  | loopStop =>
      by_cases zero : cell = 0
      · exact onward (if_pos zero)
      · cases matched : loopBegin? source position with
        | none =>
            simp only [landing, if_neg zero, matched] at landed
            cases landed
        | some start =>
            simp only [landing, if_neg zero, matched] at landed
            cases landed
            exact Nat.lt_of_le_of_lt ((loopBegin?_eq_some_iff inside start).mp matched).1 inside
  | increment => exact onward rfl
  | decrement => exact onward rfl
  | left => exact onward rfl
  | right => exact onward rfl
  | input => exact onward rfl
  | print => exact onward rfl

/-! ## Where a step goes -/

variable {machine : Machine} {state : State}

theorem WithinBudget.allowed (within : WithinBudget machine state) {character : Char}
    {instruction : Instruction} (found : machine.source[state.counter]? = some character)
    (reads : Instruction.ofChar? character = some instruction) :
    budgetFault? machine.limit state.steps = none := by
  apply (budgetFault?_eq_none_iff _ _).mpr
  intro budget limited
  refine within character budget found ?_ limited
  rw [Instruction.isCode, reads]
  rfl

/-- A step does not leave its text. -/
theorem step_counter_le {machine : Machine} {state : State}
    (within : state.counter ≤ machine.source.length) :
    (machine.step state).state.counter ≤ machine.source.length := by
  cases stepKind machine state with
  | outside past =>
      rw [step_outside past]
      exact within
  | comment character found comment =>
      rw [step_comment found comment]
      exact (List.getElem?_eq_some_iff.mp found).1
  | refused character instruction fault found reads refused =>
      rw [step_refused found reads refused]
      exact within
  | stranded character instruction fault found reads allowed stranded =>
      rw [step_stranded found reads allowed stranded]
      exact within
  | landed character instruction next found reads allowed landed =>
      rw [step_landed found reads allowed landed]
      exact landing_le_length (List.getElem?_eq_some_iff.mp found).1 landed

theorem step_movesTo_of_landing (within : WithinBudget machine state) {character : Char}
    {instruction : Instruction} (found : machine.source[state.counter]? = some character)
    (reads : Instruction.ofChar? character = some instruction) {target : Nat}
    (landed : landing machine.source instruction state.tape.cell state.counter = .ok target) :
    (machine.step state).MovesTo machine.source target := by
  rw [step_landed found reads (within.allowed found reads) landed]
  exact ⟨rfl, rfl⟩

theorem JumpDue.exists_instruction {source : List Char} (due : JumpDue source state) :
    Exists fun character => Exists fun instruction => source[state.counter]? = some character ∧
      Instruction.ofChar? character = some instruction := by
  rcases due with ⟨opens, _⟩ | ⟨closes, _⟩
  · exact ⟨'[', .loopStart, opens, rfl⟩
  · exact ⟨']', .loopStop, closes, rfl⟩

theorem step_of_jumpDue (within : WithinBudget machine state)
    (due : JumpDue machine.source state) :
    match partner? machine.source state.counter with
    | some partner => (machine.step state).MovesTo machine.source (partner + 1)
    | none => (machine.step state).outcome = .error (.unmatched state.counter) := by
  rcases due.exists_instruction with ⟨character, instruction, found, reads⟩
  have lands := landing_of_jumpDue found reads due
  cases matched : partner? machine.source state.counter with
  | some partner =>
      rw [matched] at lands
      exact step_movesTo_of_landing within found reads lands
  | none =>
      rw [matched] at lands
      dsimp only
      rw [step_stranded found reads (within.allowed found reads) lands]

theorem step_of_not_jumpDue (inside : state.counter < machine.source.length)
    (within : WithinBudget machine state) (passes : ¬ JumpDue machine.source state) :
    (machine.step state).MovesTo machine.source (state.counter + 1) := by
  have found := List.getElem?_eq_getElem inside
  cases reads : Instruction.ofChar? machine.source[state.counter] with
  | none =>
      rw [step_comment found reads]
      exact ⟨rfl, rfl⟩
  | some instruction =>
      exact step_movesTo_of_landing within found reads
        (landing_of_not_jumpDue found reads passes)

theorem step_movesTo_partner_iff (inside : state.counter < machine.source.length)
    (within : WithinBudget machine state) (partner : Nat) :
    (JumpDue machine.source state ∧ partner? machine.source state.counter = some partner) ↔
      partner ≠ state.counter ∧ (machine.step state).MovesTo machine.source (partner + 1) := by
  constructor
  · rintro ⟨due, matched⟩
    have follows := step_of_jumpDue within due
    rw [matched] at follows
    exact ⟨partner?_ne_self matched, follows⟩
  · rintro ⟨apart, moves⟩
    by_cases due : JumpDue machine.source state
    · have follows := step_of_jumpDue within due
      cases matched : partner? machine.source state.counter with
      | none =>
          rw [matched] at follows
          have failed := moves.1
          rw [follows] at failed
          cases failed
      | some other =>
          rw [matched] at follows
          have same := Nat.succ.inj (follows.target_unique moves)
          exact ⟨due, congrArg some same⟩
    · have follows := step_of_not_jumpDue inside within due
      exact absurd (Nat.succ.inj (moves.target_unique follows)) apart

theorem step_fails_iff (inside : state.counter < machine.source.length)
    (within : WithinBudget machine state) :
    (JumpDue machine.source state ∧ partner? machine.source state.counter = none) ↔
      (machine.step state).outcome = .error (.unmatched state.counter) := by
  constructor
  · rintro ⟨due, unmatched⟩
    have follows := step_of_jumpDue within due
    rw [unmatched] at follows
    exact follows
  · intro failed
    by_cases due : JumpDue machine.source state
    · refine ⟨due, ?_⟩
      have follows := step_of_jumpDue within due
      cases matched : partner? machine.source state.counter with
      | none => rfl
      | some partner =>
          rw [matched] at follows
          have moved := follows.1
          rw [failed] at moved
          cases moved
    · have moved := (step_of_not_jumpDue inside within due).1
      rw [failed] at moved
      cases moved

/-- A bracket is only blamed by a jump that is due there. -/
theorem jumpDue_of_unmatched {position : Nat} {left : State}
    (failed : machine.step state = ⟨left, .error (.unmatched position)⟩) :
    position = state.counter ∧ JumpDue machine.source state := by
  rcases (stranded_of_unmatched failed).2.1 with ⟨character, instruction, found, reads, lost⟩
  by_cases due : JumpDue machine.source state
  · rw [landing_of_jumpDue found reads due] at lost
    refine ⟨?_, due⟩
    cases matched : partner? machine.source state.counter with
    | some partner =>
        rw [matched] at lost
        cases lost
    | none =>
        rw [matched] at lost
        cases lost
        rfl
  · rw [landing_of_not_jumpDue found reads due] at lost
    cases lost

theorem step_movesTo_next_iff (inside : state.counter < machine.source.length)
    (within : WithinBudget machine state) :
    ¬ JumpDue machine.source state ↔
      (machine.step state).MovesTo machine.source (state.counter + 1) := by
  constructor
  · exact step_of_not_jumpDue inside within
  · intro moves due
    have follows := step_of_jumpDue within due
    cases matched : partner? machine.source state.counter with
    | none =>
        rw [matched] at follows
        have failed := moves.1
        rw [follows] at failed
        cases failed
    | some partner =>
        rw [matched] at follows
        exact partner?_ne_self matched (Nat.succ.inj (follows.target_unique moves))

/-- On every text the table of pairs is a matching, the two scans look it up,
and every step that is not refused goes where the table sends it. -/
theorem scans_and_steps_follow_pairs (source : List Char) :
    (forall start stop,
      ((start, stop) ∈ pairs source ↔ closingPartner? source start = some stop) ∧
        ((start, stop) ∈ pairs source ↔ openingPartner? source stop = some start)) ∧
    (forall start : Nat, source[start]? = some '[' ->
      scanForward source start =
        .ok ((closingPartner? source start).map (fun stop : Nat => (stop : Int)))) ∧
    (forall stop : Nat, source[stop]? = some ']' ->
      scanBackward source stop =
        .ok ((openingPartner? source stop).map (fun start : Nat => (start : Int)))) ∧
    (forall start stop : Nat, source[start]? = some '[' -> source[stop]? = some ']' ->
      (scanForward source start = .ok (some (stop : Int)) ↔
        scanBackward source stop = .ok (some (start : Int)))) ∧
    forall (limit : Option Nat) (state : State), state.counter < source.length ->
      WithinBudget ⟨source, limit⟩ state ->
      (forall partner,
        (JumpDue source state ∧ partner? source state.counter = some partner) ↔
          partner ≠ state.counter ∧
            (step ⟨source, limit⟩ state).MovesTo source (partner + 1)) ∧
      ((JumpDue source state ∧ partner? source state.counter = none) ↔
        (step ⟨source, limit⟩ state).outcome = .error (.unmatched state.counter)) ∧
      (¬ JumpDue source state ↔
        (step ⟨source, limit⟩ state).MovesTo source (state.counter + 1)) := by
  refine ⟨?_, ?_, ?_, ?_, ?_⟩
  · intro start stop
    rw [mem_pairs_iff, closingPartner?_eq_some_iff, openingPartner?_eq_some_iff]
    exact ⟨Iff.rfl, Iff.rfl⟩
  · intro start opens
    exact scanForward_eq_closingPartner? opens
  · intro stop closes
    exact scanBackward_eq_openingPartner? closes
  · intro start stop opens closes
    exact scanForward_eq_iff_scanBackward_eq opens closes
  · intro limit state inside within
    exact ⟨step_movesTo_partner_iff inside within, step_fails_iff inside within,
      step_movesTo_next_iff inside within⟩

theorem scans_and_steps_of_nested_brackets :
    ([']', '[', '[', '-', ']'] : List Char)[2]? = some '[' ∧
      scanForward [']', '[', '[', '-', ']'] 2 = .ok (some 4) ∧
      WithinBudget ⟨[']', '[', '[', '-', ']'], some 1⟩ { State.fresh with counter := 1 } ∧
      (step ⟨[']', '[', '[', '-', ']'], some 1⟩ { State.fresh with counter := 1 }).outcome =
        .error (.unmatched 1) := by
  have follows := scans_and_steps_follow_pairs [']', '[', '[', '-', ']']
  have within : WithinBudget ⟨[']', '[', '[', '-', ']'], some 1⟩
      { State.fresh with counter := 1 } := by
    intro character budget _ _ limited
    cases limited
    decide
  refine ⟨rfl, ?_, within, ?_⟩
  · exact follows.2.1 2 rfl
  · exact (follows.2.2.2.2 (some 1) _ (by decide) within).2.1.mp
      ⟨Or.inl ⟨rfl, fresh_cell⟩, by decide⟩

end Machine
end LoopTape
