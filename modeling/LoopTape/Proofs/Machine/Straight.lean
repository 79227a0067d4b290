import LoopTape.Proofs.Bracket.Stripping
import LoopTape.Proofs.Machine.Budget
import LoopTape.Proofs.Machine.Jumps
import LoopTape.Proofs.Tape.Turning

namespace LoopTape
namespace Machine

open LoopTape.Bracket

/-!
# Texts without brackets

Without brackets a text is run from its first character to its last, each of them once.
What it leaves can therefore be told by counting characters.  The pointer is as far up
as the moves up are more than the moves down.  A cell holds as much as it was counted up
more than down, while the pointer was on it.

All of this is told on the circles that the tape and its cells are.  The differences may
be below zero and far beyond a circle, and only their remainders are ever seen.  Where a
character was printed the cell is the one of that moment, so that what is printed is
told by the characters in front of it and not by the whole text.
-/

/-! ## What a text comes to -/

/-- The cell that the pointer is on behind the first characters of a text: how many of
them move up less how many move down, around the tape. -/
def pointerAt (source : List Char) (place : Nat) : Int :=
  ((source.take place).count '>' - (source.take place).count '<' : Int) % (Tape.size : Int)

/-- How many of the first characters of a text are the given one and find the pointer on
the given cell. -/
def timesOn (source : List Char) (cell : Int) (character : Char) (place : Nat) : Nat :=
  (List.range place).countP (fun index =>
    source[index]? == some character && pointerAt source index == cell)

/-- What the first characters of a text leave in a cell. -/
def cellAt (source : List Char) (cell : Int) (place : Nat) : Int :=
  (timesOn source cell '+' place - timesOn source cell '-' place : Int) % 256

/-- The numbers of the characters that the first characters of a text print, in order. -/
def printedBy (source : List Char) (place : Nat) : List Int :=
  ((List.range place).filter (fun index => source[index]? == some '.')).map
    (fun index => cellAt source (pointerAt source index) index)

/-- How far a character moves the pointer up. -/
def drift (character : Char) : Int :=
  if character = '>' then 1 else if character = '<' then -1 else 0

/-- How much a character adds to the cell under the pointer. -/
def gain (character : Char) : Int :=
  if character = '+' then 1 else if character = '-' then -1 else 0

/-! ## One more character -/

variable {source : List Char} {place : Nat} {character : Char} {state next : State}

theorem count_take_succ (found : source[place]? = some character) (counted : Char) :
    (source.take (place + 1)).count counted =
      (source.take place).count counted + if character = counted then 1 else 0 := by
  rw [List.take_add_one, found, List.count_append, Option.toList_some, List.count_singleton]
  simp only [beq_iff_eq]

theorem pointerAt_succ (found : source[place]? = some character) :
    pointerAt source (place + 1) =
      (pointerAt source place + drift character) % (Tape.size : Int) := by
  rw [pointerAt, pointerAt, Int.emod_add_emod, count_take_succ found, count_take_succ found]
  congr 1
  by_cases right : character = '>'
  · subst right
    simp [drift]
    omega
  · by_cases left : character = '<'
    · subst left
      simp [drift]
      omega
    · simp [drift, right, left]

theorem timesOn_succ (found : source[place]? = some character) (cell : Int) (counted : Char) :
    timesOn source cell counted (place + 1) =
      timesOn source cell counted place +
        if character = counted ∧ pointerAt source place = cell then 1 else 0 := by
  rw [timesOn, timesOn, List.range_succ, List.countP_append, List.countP_singleton, found]
  simp only [Bool.and_eq_true, beq_iff_eq, Option.some.injEq]

theorem cellAt_succ (found : source[place]? = some character) (cell : Int) :
    cellAt source cell (place + 1) =
      (cellAt source cell place + if pointerAt source place = cell then gain character else 0) %
        256 := by
  rw [cellAt, cellAt, Int.emod_add_emod, timesOn_succ found, timesOn_succ found]
  congr 1
  by_cases here : pointerAt source place = cell
  · by_cases up : character = '+'
    · subst up
      simp [gain, here]
      omega
    · by_cases down : character = '-'
      · subst down
        simp [gain, here]
        omega
      · simp [gain, up, down]
  · simp [here]

theorem printedBy_succ (found : source[place]? = some character) :
    printedBy source (place + 1) =
      printedBy source place ++
        if character = '.' then [cellAt source (pointerAt source place) place] else [] := by
  rw [printedBy, printedBy, List.range_succ, List.filter_append, List.map_append]
  congr 1
  by_cases prints : character = '.'
  · simp [found, prints]
  · simp [found, prints]

/-! ## One more step -/

/-- What a character does that is not a bracket, if it is a comment too. -/
structure Acted (character : Char) (state next : State) : Prop where
  counter : next.counter = state.counter + 1
  steps : next.steps = state.steps + if Instruction.isCode character then 1 else 0
  pointer : (next.tape.pointer.val : Int) =
    (state.tape.pointer.val + drift character) % (Tape.size : Int)
  cells : forall cell : Fin Tape.size, ((next.tape.cells.get cell).toNat : Int) =
    ((state.tape.cells.get cell).toNat +
      if state.tape.pointer = cell then gain character else 0) % 256
  printed : next.printed.toList =
    state.printed.toList ++ if character = '.' then [state.tape.cell] else []

theorem cells_modify (change : UInt8 -> UInt8) (tape : Tape) (cell : Fin Tape.size) :
    (tape.modify change).cells.get cell =
      if tape.pointer = cell then change (tape.cells.get cell) else tape.cells.get cell := by
  by_cases here : tape.pointer = cell
  · subst here
    rw [if_pos rfl]
    exact Vector.getElem_set_self tape.pointer.isLt
  · rw [if_neg here]
    exact Vector.getElem_set_ne tape.pointer.isLt cell.isLt (fun same => here (Fin.ext same))

theorem toNat_add_one (value : UInt8) : ((value + 1).toNat : Int) = (value.toNat + 1) % 256 := by
  rw [UInt8.toNat_add]
  rfl

theorem toNat_sub_one (value : UInt8) : ((value - 1).toNat : Int) = (value.toNat + -1) % 256 := by
  have small := value.toNat_lt
  rw [UInt8.toNat_sub, UInt8.toNat_one]
  omega

theorem pointer_stays (pointer : Fin Tape.size) :
    (pointer.val : Int) = (pointer.val + 0) % (Tape.size : Int) := by
  have inside := pointer.isLt
  simp only [Tape.size] at inside ⊢
  omega

theorem cell_stays (value : UInt8) : (value.toNat : Int) = (value.toNat + 0) % 256 := by
  have small := value.toNat_lt
  omega

theorem cells_stay (tape : Tape) (cell : Fin Tape.size) :
    ((tape.cells.get cell).toNat : Int) =
      ((tape.cells.get cell).toNat + if tape.pointer = cell then 0 else 0) % 256 := by
  rw [ite_self]
  exact cell_stays (tape.cells.get cell)

theorem cells_change {change : UInt8 -> UInt8} {added : Int}
    (changes : forall value : UInt8, ((change value).toNat : Int) = (value.toNat + added) % 256)
    (tape : Tape) (cell : Fin Tape.size) :
    (((tape.modify change).cells.get cell).toNat : Int) =
      ((tape.cells.get cell).toNat + if tape.pointer = cell then added else 0) % 256 := by
  rw [cells_modify]
  by_cases here : tape.pointer = cell
  · rw [if_pos here, if_pos here, changes]
  · rw [if_neg here, if_neg here]
    exact cell_stays (tape.cells.get cell)

/-- An instruction other than a bracket does what its character does. -/
theorem acted_effect {instruction : Instruction} (notStart : instruction ≠ .loopStart)
    (notStop : instruction ≠ .loopStop) (state : State) :
    Acted instruction.toChar state
      { effect instruction { state with steps := state.steps + 1 } with
        counter := state.counter + 1 } := by
  have silent : state.printed.toList = state.printed.toList ++ [] := (List.append_nil _).symm
  cases instruction with
  | loopStart => exact absurd rfl notStart
  | loopStop => exact absurd rfl notStop
  | increment =>
      exact ⟨rfl, rfl, pointer_stays _, cells_change toNat_add_one state.tape, silent⟩
  | decrement =>
      exact ⟨rfl, rfl, pointer_stays _, cells_change toNat_sub_one state.tape, silent⟩
  | right =>
      refine ⟨rfl, rfl, ?_, cells_stay state.tape, silent⟩
      exact (Tape.upFrom_eq_iff _ _ _).mp (Tape.upFrom_one state.tape.pointer).symm
  | left =>
      refine ⟨rfl, rfl, ?_, cells_stay state.tape, silent⟩
      exact (Tape.upFrom_eq_iff _ _ _).mp (Tape.upFrom_neg_one state.tape.pointer).symm
  | input => exact ⟨rfl, rfl, pointer_stays _, cells_stay state.tape, silent⟩
  | print => exact ⟨rfl, rfl, pointer_stays _, cells_stay state.tape, Array.toList_push⟩

theorem ne_toChar_of_comment (comment : Instruction.ofChar? character = none)
    (instruction : Instruction) : character ≠ instruction.toChar := by
  intro same
  rw [same, Instruction.ofChar?_toChar] at comment
  cases comment

/-- A comment does nothing but let the counter pass. -/
theorem acted_comment (comment : Instruction.ofChar? character = none) (state : State) :
    Acted character state { state with counter := state.counter + 1 } := by
  have other := ne_toChar_of_comment comment
  have still : drift character = 0 :=
    (if_neg (other .right)).trans (if_neg (other .left))
  have nothing : gain character = 0 :=
    (if_neg (other .increment)).trans (if_neg (other .decrement))
  have notPrint : character ≠ '.' := other .print
  constructor
  · rfl
  · rw [Instruction.not_isCode_of_ofChar? comment]
    rfl
  · rw [still]
    exact pointer_stays state.tape.pointer
  · rw [nothing]
    exact cells_stay state.tape
  · simp only [if_neg notPrint, List.append_nil]

/-- Without a budget no step fails on a character that is not a bracket. -/
theorem exists_acted (found : source[state.counter]? = some character)
    (notStart : character ≠ '[') (notStop : character ≠ ']') :
    Exists fun next =>
      (Machine.mk source none).step state = (Machine.mk source none).answer ⟨next, none⟩ ∧
        Acted character state next := by
  cases reads : Instruction.ofChar? character with
  | none =>
      exact ⟨_, step_comment_unlimited found reads, acted_comment reads state⟩
  | some instruction =>
      have written := (Instruction.ofChar?_eq_some_iff _ _).mp reads
      have passes : ¬ JumpDue source state := by
        rintro (⟨opens, _⟩ | ⟨closes, _⟩)
        · exact notStart (Option.some.inj (found.symm.trans opens))
        · exact notStop (Option.some.inj (found.symm.trans closes))
      have lands := landing_of_not_jumpDue found reads passes
      have opensNothing : instruction ≠ .loopStart := by
        rintro rfl
        exact notStart written
      have closesNothing : instruction ≠ .loopStop := by
        rintro rfl
        exact notStop written
      have acted := acted_effect opensNothing closesNothing state
      rw [← written] at acted
      exact ⟨_, step_landed_unlimited found reads lands, acted⟩

/-! ## The whole run -/

/-- A state is what the characters in front of its counter come to. -/
structure Tallied (source : List Char) (state : State) : Prop where
  steps : state.steps = codeBefore source state.counter
  pointer : (state.tape.pointer.val : Int) = pointerAt source state.counter
  cells : forall cell : Fin Tape.size,
    ((state.tape.cells.get cell).toNat : Int) = cellAt source cell.val state.counter
  printed : state.printed.toList.map (fun byte => (byte.toNat : Int)) =
    printedBy source state.counter

theorem tallied_fresh (source : List Char) : Tallied source .fresh := by
  refine ⟨rfl, rfl, ?_, rfl⟩
  intro cell
  change ((Vector.replicate Tape.size (0 : UInt8))[cell.val].toNat : Int) = 0
  rw [Vector.getElem_replicate]
  rfl

theorem Tallied.acted (tallied : Tallied source state)
    (found : source[state.counter]? = some character) (acted : Acted character state next) :
    Tallied source next := by
  have here : forall cell : Fin Tape.size,
      state.tape.pointer = cell ↔ pointerAt source state.counter = cell.val := by
    intro cell
    rw [← tallied.pointer, Int.natCast_inj, Fin.ext_iff]
  have under : (state.tape.cell.toNat : Int) =
      cellAt source (pointerAt source state.counter) state.counter := by
    rw [← tallied.pointer]
    exact tallied.cells state.tape.pointer
  constructor
  · rw [acted.counter, acted.steps, tallied.steps, codeBefore, codeBefore, List.take_add_one, found,
      List.countP_append, Option.toList_some, List.countP_singleton]
  · rw [acted.counter, acted.pointer, tallied.pointer, pointerAt_succ found]
  · intro cell
    rw [acted.counter, acted.cells, tallied.cells, cellAt_succ found]
    simp only [here]
  · rw [acted.counter, acted.printed, List.map_append, tallied.printed, printedBy_succ found,
      ← under]
    congr 1
    by_cases prints : character = '.'
    · rw [if_pos prints, if_pos prints]
      rfl
    · rw [if_neg prints, if_neg prints]
      rfl

/-- From what the characters in front of the counter come to, the run goes on to what all
of them come to. -/
theorem Tallied.exists_runFor (noStart : '[' ∉ source) (noStop : ']' ∉ source) {left : Nat}
    (tallied : Tallied source state) (length : state.counter + left = source.length) :
    Exists fun final => final.counter = source.length ∧ Tallied source final ∧
      (Machine.mk source none).runFor (left + 1) state = some ⟨final, none⟩ := by
  induction left generalizing state with
  | zero => exact ⟨state, length, tallied, runFor_outside (Nat.le_of_eq length.symm)⟩
  | succ left inductionHypothesis =>
      have found := List.getElem?_eq_getElem (show state.counter < source.length by omega)
      have member := List.mem_of_getElem? found
      rcases exists_acted found (fun start => noStart (start ▸ member))
        (fun stop => noStop (stop ▸ member)) with ⟨next, moved, acted⟩
      have length' : next.counter + left = source.length := by
        rw [acted.counter]
        omega
      rcases inductionHypothesis (tallied.acted found acted) length' with
        ⟨final, reached, whole, later⟩
      exact ⟨final, reached, whole, runFor_of_answer moved later⟩

theorem toNat_ofNat_toNat (byte : UInt8) : (Char.ofNat byte.toNat).toNat = byte.toNat := by
  have small := byte.toNat_lt
  have valid : byte.toNat.isValidChar := Or.inl (by omega)
  rw [Char.ofNat, dif_pos valid]
  rfl

/-- A text without brackets is run to its end, whatever else is in it.  Each of its
instructions has been counted once.  The pointer and the cells are told by the moves and
the counts of the text, and each character printed is told by those in front of it. -/
theorem straight_texts_are_tallied {source : List Char} (noStart : '[' ∉ source)
    (noStop : ']' ∉ source) :
    Exists fun final : State =>
      (forall patience, source.length < patience ->
        (Machine.mk source none).execute patience = some ⟨final, none⟩) ∧
      final.counter = source.length ∧
      final.steps = source.countP Instruction.isCode ∧
      (final.tape.pointer.val : Int) = pointerAt source source.length ∧
      (forall cell : Fin Tape.size,
        ((final.tape.cells.get cell).toNat : Int) = cellAt source cell.val source.length) ∧
      final.output.map (fun character => (character.toNat : Int)) =
        printedBy source source.length := by
  rcases (tallied_fresh source).exists_runFor noStart noStop (Nat.zero_add source.length) with
    ⟨final, reached, tallied, finished⟩
  have steps := tallied.steps
  have printed := tallied.printed
  rw [reached] at steps printed
  refine ⟨final, ?_, reached, ?_, reached ▸ tallied.pointer, reached ▸ tallied.cells, ?_⟩
  · intro patience enough
    exact runFor_mono finished enough
  · rw [steps, codeBefore, List.take_length]
  · rw [← printed, State.output, List.map_map]
    apply List.map_congr_left
    intro byte _
    exact congrArg Nat.cast (toNat_ofNat_toNat byte)

/-- Both circles are gone around downward: the pointer and the cell are one below zero
when the character is printed. -/
theorem tally_around_both_circles :
    '[' ∉ ['<', '-', 'x', '.', '+', '>', '+'] ∧ ']' ∉ ['<', '-', 'x', '.', '+', '>', '+'] ∧
      Exists fun final : State =>
        (Machine.mk ['<', '-', 'x', '.', '+', '>', '+'] none).execute 8 = some ⟨final, none⟩ ∧
        final.steps = 6 ∧ (final.tape.pointer.val : Int) = 0 ∧
        ((final.tape.cells.get 29999).toNat : Int) = 0 ∧
        ((final.tape.cells.get 0).toNat : Int) = 1 ∧
        final.output.map (fun character => (character.toNat : Int)) = [255] := by
  have noStart : '[' ∉ ['<', '-', 'x', '.', '+', '>', '+'] := by decide
  have noStop : ']' ∉ ['<', '-', 'x', '.', '+', '>', '+'] := by decide
  rcases straight_texts_are_tallied noStart noStop with
    ⟨final, finishes, _, steps, pointer, cells, output⟩
  exact ⟨noStart, noStop, final, finishes 8 (by decide), steps, pointer, cells 29999, cells 0,
    output⟩

end Machine
end LoopTape
