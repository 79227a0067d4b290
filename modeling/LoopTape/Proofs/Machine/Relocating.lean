import LoopTape.Proofs.Bracket.Relocation
import LoopTape.Proofs.Machine.Views

namespace LoopTape
namespace Machine

open LoopTape.Bracket

/-!
# Runs of texts found again

If a text is found again in another one, its run is found again in the run of
the other.  The tape, what has been printed and what has been counted are the
same at each moment.  Only the counter, and the position that a fault reports, are
places in the other text.

Every instruction is a step in both texts.  A comment that has been passed over
is a step in the first text alone, and this is why it is free in both.
-/

/-- The same state and the same fault, at their places in another text. -/
def View.relocate (place : Nat -> Nat) : View where
  state state := { state with counter := place state.counter }
  fault
    | .unmatched position => .unmatched (place position)
    | .overBudget steps limit => .overBudget steps limit

variable {source target : List Char} {place : Nat -> Nat} {state : State} {character : Char}
  {instruction : Instruction}

theorem fault_relocate_of_budgetFault? {limit : Option Nat} {steps : Nat} {fault : Fault}
    (refused : budgetFault? limit steps = some fault) :
    (View.relocate place).fault fault = fault := by
  rcases (budgetFault?_eq_some_iff _ _ _).mp refused with ⟨budget, _, _, same⟩
  rw [same]
  rfl

/-- What an instruction does is independent of where it stands. -/
theorem effect_counter (instruction : Instruction) (state : State) (before after : Nat) :
    { effect instruction { state with counter := before } with counter := after } =
      { effect instruction state with counter := after } := by
  cases instruction <;> rfl

/-- An instruction lands at the place of where it landed before. -/
theorem landing_place (relocation : Relocation source target place) {position : Nat}
    (found : source[position]? = some character)
    (reads : Instruction.ofChar? character = some instruction) (cell : UInt8) :
    landing target instruction cell (place position) =
      match landing source instruction cell position with
      | .ok next => .ok (place next)
      | .error fault => .error ((View.relocate place).fault fault) := by
  have next := (relocation.code found (Instruction.isCode_of_ofChar? reads)).2
  rw [(Instruction.ofChar?_eq_some_iff _ _).mp reads] at found
  cases instruction with
  | loopStart =>
      by_cases zero : cell = 0
      · simp only [landing, if_pos zero, relocation.loopEnd?_place found]
        cases matched : loopEnd? source position with
        | none => rfl
        | some stop =>
            simp only [Option.map_some, relocation.place_past_stop found matched]
      · simp only [landing, if_neg zero, next]
  | loopStop =>
      by_cases zero : cell = 0
      · simp only [landing, if_pos zero, next]
      · simp only [landing, if_neg zero, relocation.loopBegin?_place found]
        cases matched : loopBegin? source position with
        | none => rfl
        | some start =>
            simp only [Option.map_some, relocation.place_past_start found matched]
  | increment => simp only [landing, next]
  | decrement => simp only [landing, next]
  | left => simp only [landing, next]
  | right => simp only [landing, next]
  | input => simp only [landing, next]
  | print => simp only [landing, next]

/-- Each step in a text appears in the text in which it is found again. -/
theorem shown_relocate (relocation : Relocation source target place) (limit : Option Nat)
    (inside : state.counter < source.length) :
    Shown ⟨source, limit⟩ ⟨target, limit⟩ (View.relocate place) state := by
  have within : forall {found : Char}, target[place state.counter]? = some found ->
      place state.counter < target.length :=
    fun found => (List.getElem?_eq_some_iff.mp found).1
  cases stepKind ⟨source, limit⟩ state with
  | outside past => exact absurd inside (Nat.not_lt_of_le past)
  | comment character found comment =>
      rcases relocation.comment found (Instruction.not_isCode_of_ofChar? comment) with stays | ⟨kept, next⟩
      · refine .hidden { state with counter := state.counter + 1 } ?_ (Nat.lt_succ_self _) ?_
        · rw [step_comment found comment]
          rfl
        · simp only [View.relocate, stays]
      · have moved : (Machine.mk target limit).step ((View.relocate place).state state) =
            advance ⟨target, limit⟩ ((View.relocate place).state state) (place state.counter + 1) :=
          step_comment kept comment
        refine .openly (within kept) ?_
        rw [step_comment found comment, moved, ← next]
        rfl
  | refused character instruction fault found reads refused =>
      have kept := (relocation.code found (Instruction.isCode_of_ofChar? reads)).1
      have stays : (Machine.mk target limit).step ((View.relocate place).state state) =
          ⟨(View.relocate place).state state, .error fault⟩ :=
        step_refused kept reads refused
      refine .openly (within kept) ?_
      rw [step_refused found reads refused, stays]
      simp only [View.finish, answer, Turn.part, Option.map_some,
        fault_relocate_of_budgetFault? refused]
  | stranded character instruction fault found reads allowed stranded =>
      have kept := (relocation.code found (Instruction.isCode_of_ofChar? reads)).1
      have lands := landing_place relocation found reads state.tape.cell
      rw [stranded] at lands
      have counted : (Machine.mk target limit).step ((View.relocate place).state state) =
          ⟨(View.relocate place).state { state with steps := state.steps + 1 },
            .error ((View.relocate place).fault fault)⟩ :=
        @step_stranded ⟨target, limit⟩ ((View.relocate place).state state) _ _ kept reads allowed _
          lands
      refine .openly (within kept) ?_
      rw [step_stranded found reads allowed stranded, counted]
      rfl
  | landed character instruction next found reads allowed landed =>
      have kept := (relocation.code found (Instruction.isCode_of_ofChar? reads)).1
      have lands := landing_place relocation found reads state.tape.cell
      rw [landed] at lands
      have acted : (Machine.mk target limit).step ((View.relocate place).state state) =
          advance ⟨target, limit⟩ (effect instruction
            { state with counter := place state.counter, steps := state.steps + 1 }) (place next) :=
        @step_landed ⟨target, limit⟩ ((View.relocate place).state state) _ _ kept reads allowed _
          lands
      refine .openly (within kept) ?_
      rw [step_landed found reads allowed landed, acted, advance,
        effect_counter instruction { state with steps := state.steps + 1 }]
      rfl

/-- A run goes through the run of every text that is found again where it starts. -/
theorem ends_relocate_iff (relocation : Relocation source target place) (limit : Option Nat)
    (state : State) (finish : Finish) :
    (Machine.mk target limit).Ends ((View.relocate place).state state) finish ↔
      Exists fun part => (Machine.mk source limit).Ends state part ∧
        (Machine.mk target limit).EndsAfter ((View.relocate place).finish part) finish :=
  ends_view_iff (fun _ inside => shown_relocate relocation limit inside) state finish

/-- If nothing of the other text comes behind, both runs end together. -/
theorem ends_relocate_iff_of_covers (relocation : Relocation source target place)
    (covers : forall position, source.length ≤ position -> target.length ≤ place position)
    (limit : Option Nat) (state : State) (finish : Finish) :
    (Machine.mk target limit).Ends ((View.relocate place).state state) finish ↔
      Exists fun part => (Machine.mk source limit).Ends state part ∧
        finish = (View.relocate place).finish part :=
  ends_view_iff_of_covers (fun _ inside => shown_relocate relocation limit inside)
    (fun state outside => covers state.counter outside) state finish

end Machine
end LoopTape
