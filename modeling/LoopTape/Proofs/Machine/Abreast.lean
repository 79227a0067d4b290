import LoopTape.Proofs.Bracket.Gaps
import LoopTape.Proofs.Machine.Budget
import LoopTape.Proofs.Machine.Jumps
import LoopTape.Proofs.Machine.Relocating

namespace LoopTape
namespace Machine

open LoopTape.Bracket

/-!
# Runs abreast

Counting up and counting down undo one another, and so do the two moves.  Nothing has
to be known about the cell or the pointer for this, because both go around.

A text with two such instructions between its parts is compared with the text that has two
comments there.  All positions are the same in both, and brackets belong together alike,
so the two runs are abreast at each step.  Between the two instructions their states
differ by what the second is about to take back, and elsewhere only by what has been
counted.  A jump goes past a bracket and so never lands between the two.
-/

/-- The second instruction takes back what the first has done. -/
inductive Inverse : Instruction -> Instruction -> Prop where
  | countUp : Inverse .increment .decrement
  | countDown : Inverse .decrement .increment
  | moveUp : Inverse .right .left
  | moveDown : Inverse .left .right

/-- How many of the steps that a run takes find the counter at a position. -/
def timesAt (machine : Machine) (position : Nat) : Nat -> State -> Nat
  | 0, _ => 0
  | allowed + 1, state =>
    let here := if state.counter = position then 1 else 0
    match machine.step state with
    | ⟨next, .ok true⟩ => here + timesAt machine position allowed next
    | ⟨_, .ok false⟩ => here
    | ⟨_, .error _⟩ => here

/-- The state when more instructions have been counted. -/
def State.paying (paid : Nat) (state : State) : State := { state with steps := state.steps + paid }

/-- The finish when more instructions have been counted. -/
def Finish.paying (paid : Nat) (finish : Finish) : Finish :=
  ⟨finish.state.paying paid, finish.fault⟩

variable {first second instruction : Instruction} {front back : List Char}
  {state plain paired : State} {paid : Nat}

namespace Inverse

/-- Each of the two takes back what the other has done. -/
theorem symm (inverse : Inverse first second) : Inverse second first := by
  cases inverse with
  | countUp => exact countDown
  | countDown => exact countUp
  | moveUp => exact moveDown
  | moveDown => exact moveUp

theorem weightless (inverse : Inverse first second) :
    Weightless [first.toChar, second.toChar] := by
  intro character member
  rcases List.mem_cons.mp member with same | later
  · rw [same]
    cases inverse <;> rfl
  · rw [List.mem_singleton.mp later]
    cases inverse <;> rfl

theorem landing (inverse : Inverse first second) (source : List Char) (cell : UInt8)
    (position : Nat) : landing source first cell position = .ok (position + 1) := by
  cases inverse <;> rfl

/-- Both together count two instructions and let the counter pass. -/
theorem takes_back (inverse : Inverse first second) (state : State) (middle counter : Nat) :
    let between := { effect first { state with steps := state.steps + 1 } with counter := middle }
    { effect second { between with steps := between.steps + 1 } with counter := counter } =
      { state with counter := counter, steps := state.steps + 2 } := by
  cases inverse with
  | countUp => simp only [effect, Tape.decrement_increment]
  | countDown => simp only [effect, Tape.increment_decrement]
  | moveUp => simp only [effect, Tape.moveLeft_moveRight]
  | moveDown => simp only [effect, Tape.moveRight_moveLeft]

end Inverse

/-! ## Texts with different gaps of one width -/

/-- Where brackets belong together alike, instructions land alike. -/
theorem landing_congr {source other : List Char}
    (alike : forall start stop, Encloses source start stop ↔ Encloses other start stop)
    {position : Nat} {character : Char} (found : source[position]? = some character)
    (also : other[position]? = some character)
    (reads : Instruction.ofChar? character = some instruction) (cell : UInt8) :
    landing source instruction cell position = landing other instruction cell position := by
  rw [(Instruction.ofChar?_eq_some_iff _ _).mp reads] at found also
  cases instruction with
  | loopStart =>
      have ends : loopEnd? source position = loopEnd? other position := by
        apply Option.ext
        intro stop
        rw [loopEnd?_eq_some_iff_encloses found, loopEnd?_eq_some_iff_encloses also, alike]
      simp only [landing, ends]
  | loopStop =>
      have begins : loopBegin? source position = loopBegin? other position := by
        apply Option.ext
        intro start
        rw [loopBegin?_eq_some_iff_encloses found, loopBegin?_eq_some_iff_encloses also, alike]
      simp only [landing, begins]
  | increment => rfl
  | decrement => rfl
  | left => rfl
  | right => rfl
  | input => rfl
  | print => rfl

/-- An instruction lands on the next character or just past a bracket. -/
theorem landing_past {source : List Char} {character : Char} {next : Nat}
    (found : source[state.counter]? = some character)
    (reads : Instruction.ofChar? character = some instruction)
    (landed : landing source instruction state.tape.cell state.counter = .ok next) :
    next = state.counter + 1 ∨ Exists fun partner => next = partner + 1 ∧
      (source[partner]? = some '[' ∨ source[partner]? = some ']') := by
  by_cases due : JumpDue source state
  · rw [landing_of_jumpDue found reads due] at landed
    cases matched : partner? source state.counter with
    | none =>
        rw [matched] at landed
        cases landed
    | some partner =>
        rw [matched] at landed
        cases landed
        refine Or.inr ⟨partner, rfl, ?_⟩
        unfold partner? at matched
        split at matched
        · exact Or.inr ((closingPartner?_eq_some_iff _ _ _).mp matched).closes
        · exact Or.inl ((openingPartner?_eq_some_iff _ _ _).mp matched).opens
        · cases matched
  · rw [landing_of_not_jumpDue found reads due] at landed
    cases landed
    exact Or.inl rfl

/-! ## Steps abreast -/

theorem effect_paying (instruction : Instruction) (state : State) (paid : Nat) :
    effect instruction (state.paying paid) = (effect instruction state).paying paid := by
  cases instruction <;> rfl

/-- The text with two instructions put between its parts. -/
def withPair (first second : Instruction) (front back : List Char) : Machine :=
  ⟨front ++ [first.toChar, second.toChar] ++ back, none⟩

/-- The text with two comments in the same place. -/
def withBlanks (front back : List Char) : Machine := ⟨front ++ [' ', ' '] ++ back, none⟩

/-- How the state of the text with comments and that of the text with instructions differ
at one moment, when so much has been counted for the instructions. -/
inductive Abreast (second : Instruction) (place paid : Nat) (plain paired : State) : Prop where
  /-- In what has been counted. -/
  | outside (apart : plain.counter ≠ place + 1) (same : paired = plain.paying paid)
  /-- In what the second instruction, which is carried out next, takes back. -/
  | between (here : plain.counter = place + 1) (also : paired.counter = place + 1)
      (undone : forall counter,
        { effect second { paired with steps := paired.steps + 1 } with counter := counter } =
          State.paying paid { plain with counter := counter })

theorem Abreast.counter_eq {place : Nat} (abreast : Abreast second place paid plain paired) :
    paired.counter = plain.counter := by
  cases abreast with
  | outside _ same =>
      rw [same]
      rfl
  | between here also _ => rw [here, also]

theorem not_isCode_of_mem_blanks {character : Char} (member : character ∈ [' ', ' ']) :
    Instruction.isCode character = false := by
  rw [List.eq_of_mem_replicate (n := 2) member]
  rfl

theorem weightless_blanks : Weightless [' ', ' '] := by
  intro character member
  exact opening_of_comment (not_isCode_of_mem_blanks member)

/-- Both runs take one step, after which they are abreast again or have failed alike. -/
inductive StepAbreast (first second : Instruction) (front back : List Char) (paid : Nat)
    (plain paired : State) : Prop where
  | passes (next nextPaired : State)
      (moved : (withBlanks front back).step plain = (withBlanks front back).answer ⟨next, none⟩)
      (movedPaired : (withPair first second front back).step paired =
        (withPair first second front back).answer ⟨nextPaired, none⟩)
      (abreast : Abreast second front.length
        (paid + 2 * if plain.counter = front.length then 1 else 0) next nextPaired)
  | fails (left : State) (fault : Fault) (apart : plain.counter ≠ front.length)
      (failed : (withBlanks front back).step plain = ⟨left, .error fault⟩)
      (failedPaired : (withPair first second front back).step paired =
        ⟨left.paying paid, .error fault⟩)

theorem stepAbreast_first (inverse : Inverse first second) (here : plain.counter = front.length) :
    StepAbreast first second front back paid plain (plain.paying paid) := by
  have blank : (front ++ [' ', ' '] ++ back)[plain.counter]? = some ' ' := by
    rw [here]
    exact getElem?_gap front [' ', ' '] back Nat.zero_lt_two
  have found : (front ++ [first.toChar, second.toChar] ++ back)[plain.counter]? =
      some first.toChar := by
    rw [here]
    exact getElem?_gap front [first.toChar, second.toChar] back Nat.zero_lt_two
  have moved := @step_landed_unlimited _ (plain.paying paid) _ _ found _
    (Instruction.ofChar?_toChar first) (inverse.landing _ _ _)
  refine .passes _ _ (step_comment_unlimited blank rfl) moved ?_
  rw [if_pos here]
  refine .between (congrArg Nat.succ here) (congrArg Nat.succ here) ?_
  intro counter
  exact inverse.takes_back (plain.paying paid) _ counter

theorem stepAbreast_second (inverse : Inverse first second)
    (here : plain.counter = front.length + 1) (also : paired.counter = front.length + 1)
    (undone : forall counter,
      { effect second { paired with steps := paired.steps + 1 } with counter := counter } =
        State.paying paid { plain with counter := counter }) :
    StepAbreast first second front back paid plain paired := by
  have blank : (front ++ [' ', ' '] ++ back)[plain.counter]? = some ' ' := by
    rw [here]
    exact getElem?_gap front [' ', ' '] back Nat.one_lt_two
  have found : (front ++ [first.toChar, second.toChar] ++ back)[paired.counter]? =
      some second.toChar := by
    rw [also]
    exact getElem?_gap front [first.toChar, second.toChar] back Nat.one_lt_two
  have apart : plain.counter ≠ front.length := by
    rw [here]
    exact Nat.succ_ne_self _
  have moved := step_landed_unlimited found (Instruction.ofChar?_toChar second)
    (inverse.symm.landing _ paired.tape.cell _)
  rw [undone, also, ← here] at moved
  refine .passes _ _ (step_comment_unlimited blank rfl) moved ?_
  rw [if_neg apart]
  refine .outside ?_ rfl
  rw [here]
  exact Nat.succ_ne_self _

theorem stepAbreast_apart (inverse : Inverse first second) (apart : plain.counter ≠ front.length)
    (later : plain.counter ≠ front.length + 1)
    (inside : plain.counter < (withBlanks front back).source.length) :
    StepAbreast first second front back paid plain (plain.paying paid) := by
  have outside : plain.counter < front.length ∨ front.length + 2 ≤ plain.counter := by omega
  have same : (front ++ [first.toChar, second.toChar] ++ back)[plain.counter]? =
      (front ++ [' ', ' '] ++ back)[plain.counter]? := getElem?_outside rfl outside
  have alike : forall start stop,
      Encloses (front ++ [first.toChar, second.toChar] ++ back) start stop ↔
        Encloses (front ++ [' ', ' '] ++ back) start stop :=
    inverse.weightless.encloses_iff weightless_blanks rfl
  cases stepKind (withBlanks front back) plain with
  | outside past => exact absurd inside (Nat.not_lt_of_le past)
  | comment character found comment =>
      have moved := @step_comment_unlimited _ (plain.paying paid) _ (same.trans found) comment
      refine .passes _ _ (step_comment_unlimited found comment) moved ?_
      rw [if_neg apart]
      exact .outside (fun past => apart (Nat.succ.inj past)) rfl
  | refused character instruction fault found reads refused => cases refused
  | stranded character instruction fault found reads allowed stranded =>
      have lands := landing_congr alike (same.trans found) found reads plain.tape.cell
      have failed := @step_stranded (withPair first second front back) (plain.paying paid) _ _
        (same.trans found) reads allowed _ (lands.trans stranded)
      refine .fails _ fault apart (step_stranded found reads allowed stranded) ?_
      rw [failed, State.paying, State.paying, Nat.add_right_comm]
  | landed character instruction next found reads allowed landed =>
      have lands := landing_congr alike (same.trans found) found reads plain.tape.cell
      have moved := @step_landed_unlimited _ (plain.paying paid) _ _ (same.trans found) _ reads
        (lands.trans landed)
      have counted : { plain.paying paid with steps := (plain.paying paid).steps + 1 } =
          State.paying paid { plain with steps := plain.steps + 1 } := by
        simp only [State.paying, Nat.add_right_comm]
      rw [counted, effect_paying] at moved
      refine .passes _ _ (step_landed_unlimited found reads landed) moved ?_
      rw [if_neg apart]
      refine .outside ?_ rfl
      rintro rfl
      rcases landing_past found reads landed with onward | ⟨partner, past, bracket⟩
      · exact apart (Nat.succ.inj onward).symm
      · -- The instruction would have jumped past the first of the two comments.
        have blank := getElem?_gap front [' ', ' '] back Nat.zero_lt_two
        rw [← Nat.succ.inj past] at bracket
        rcases bracket with opens | closes
        · cases Option.some.inj (blank.symm.trans opens)
        · cases Option.some.inj (blank.symm.trans closes)

theorem Abreast.step (inverse : Inverse first second)
    (abreast : Abreast second front.length paid plain paired)
    (inside : plain.counter < (withBlanks front back).source.length) :
    StepAbreast first second front back paid plain paired := by
  cases abreast with
  | between here also undone => exact stepAbreast_second inverse here also undone
  | outside apart same =>
      rw [same]
      by_cases here : plain.counter = front.length
      · exact stepAbreast_first inverse here
      · exact stepAbreast_apart inverse here apart inside

/-! ## Runs abreast -/

section

variable {machine : Machine} {next : State} {position allowed : Nat}

theorem timesAt_inside (answers : machine.step state = machine.answer ⟨next, none⟩)
    (inside : next.counter < machine.source.length) :
    machine.timesAt position (allowed + 1) state =
      (if state.counter = position then 1 else 0) + machine.timesAt position allowed next := by
  simp only [timesAt, answers, answer, advance, inside, decide_true]

theorem timesAt_last (answers : machine.step state = machine.answer ⟨next, none⟩)
    (outside : machine.source.length ≤ next.counter) :
    machine.timesAt position (allowed + 1) state = if state.counter = position then 1 else 0 := by
  simp only [timesAt, answers, answer, advance, Nat.not_lt_of_le outside, decide_false]

end

/-- Whichever two characters are put between them, the parts and these make up the text. -/
theorem length_between (front back : List Char) (one two : Char) :
    (front ++ [one, two] ++ back).length = front.length + 2 + back.length := by
  rw [List.length_append, List.length_append]
  rfl

/-- Behind the texts nothing is left to be taken back. -/
theorem Abreast.eq_paying (abreast : Abreast second front.length paid plain paired)
    (past : front.length + 2 + back.length ≤ plain.counter) : paired = plain.paying paid := by
  cases abreast with
  | outside _ same => exact same
  | between here _ _ =>
      rw [here] at past
      omega

/-- Runs that are abreast end alike, after the same number of steps. -/
theorem Abreast.runFor (inverse : Inverse first second) (allowed : Nat)
    (abreast : Abreast second front.length paid plain paired) :
    (withPair first second front back).runFor allowed paired =
      ((withBlanks front back).runFor allowed plain).map (Finish.paying
        (paid + 2 * (withPair first second front back).timesAt front.length allowed paired)) := by
  induction allowed generalizing paid plain paired with
  | zero => rfl
  | succ allowed inductionHypothesis =>
      have counter := abreast.counter_eq
      have blanks : (withBlanks front back).source.length = front.length + 2 + back.length :=
        length_between front back ' ' ' '
      have pair : (withPair first second front back).source.length =
          front.length + 2 + back.length :=
        length_between front back first.toChar second.toChar
      by_cases inside : plain.counter < front.length + 2 + back.length
      · cases abreast.step inverse (blanks ▸ inside) with
        | passes next nextPaired moved movedPaired later =>
            have same := later.counter_eq
            by_cases within : next.counter < front.length + 2 + back.length
            · have alsoWithin : nextPaired.counter < front.length + 2 + back.length := same ▸ within
              rw [runFor_inside moved (blanks ▸ within),
                runFor_inside movedPaired (pair ▸ alsoWithin),
                timesAt_inside movedPaired (pair ▸ alsoWithin), inductionHypothesis later,
                counter, Nat.mul_add, Nat.add_assoc]
            · have past := Nat.le_of_not_lt within
              have pastPaired : front.length + 2 + back.length ≤ nextPaired.counter := same ▸ past
              rw [runFor_last moved (blanks ▸ past), runFor_last movedPaired (pair ▸ pastPaired),
                timesAt_last movedPaired (pair ▸ pastPaired), later.eq_paying past, counter]
              rfl
        | fails left fault apart failed failedPaired =>
            simp only [Machine.runFor, timesAt, failed, failedPaired, counter, if_neg apart]
            rfl
      · have past := Nat.le_of_not_lt inside
        have pastPaired : front.length + 2 + back.length ≤ paired.counter := counter ▸ past
        have apart : paired.counter ≠ front.length := by omega
        rw [runFor_outside (pair ▸ pastPaired), runFor_outside (blanks ▸ past)]
        simp only [timesAt, step_outside (pair ▸ pastPaired), if_neg apart]
        rw [abreast.eq_paying past]
        rfl

end Machine
end LoopTape
