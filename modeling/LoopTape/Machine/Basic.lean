import LoopTape.Tape
import LoopTape.Text.Decimal

namespace LoopTape

/-!
# Machines and their states

A machine is a text together with an optional budget.  The text stays as it
was written, comments included, because positions in it are what failures
report.  The budget bounds the number of instructions that a run may count.

What changes during a run is the state: the tape, the counter that stands on
the next character, the bytes printed so far, and the number of instructions
counted so far.  Only two things can go wrong, and both are recorded by their
cause.  The words of their messages belong to the reports, not to the machine.
-/

/-- A text to run and the number of instructions that a run of it may count. -/
structure Machine where
  source : List Char
  limit : Option Nat
  deriving DecidableEq

namespace Machine

/-- The failure to build a machine: a budget below zero was asked for. -/
structure NegativeLimit where
  requested : Int
  deriving DecidableEq

/-- The text that says why no machine was built. -/
def NegativeLimit.message (failure : NegativeLimit) : List Char :=
  "max_steps must be >= 0, got ".toList ++ Text.decimal failure.requested

/-- Build a machine from a requested budget, which must not be negative. -/
def build (source : List Char) (requested : Option Int) : Except NegativeLimit Machine :=
  match requested with
  | none => .ok ⟨source, none⟩
  | some limit => if limit < 0 then .error ⟨limit⟩ else .ok ⟨source, some limit.toNat⟩

/-- Why an instruction was not carried out. -/
inductive Fault where
  /-- A jump was due at this position and the bracket there has no partner. -/
  | unmatched (position : Nat)
  /-- An instruction was due and the budget had been used up. -/
  | overBudget (steps limit : Nat)
  deriving DecidableEq

/-- All that changes while a machine runs. -/
structure State where
  tape : Tape
  /-- The position of the next character. -/
  counter : Nat
  /-- The bytes printed so far. -/
  printed : Array UInt8
  /-- The instructions counted so far. -/
  steps : Nat
  deriving DecidableEq

namespace State

/-- The state before the first step. -/
def fresh : State := ⟨.blank, 0, #[], 0⟩

/-- Clear the tape, drop what has been printed and set the numbers back. -/
def reset (state : State) : State where
  tape := state.tape.clear
  counter := 0
  printed := #[]
  steps := 0

/-- A copy of the state, taken part by part. -/
def snapshot (state : State) : State where
  tape := { cells := state.tape.cells, pointer := state.tape.pointer }
  counter := state.counter
  printed := state.printed
  steps := state.steps

/-- The printed bytes as a text: each byte is the character with its number. -/
def output (state : State) : List Char :=
  state.printed.toList.map (fun byte => Char.ofNat byte.toNat)

/-- A reset overwrites every part, so nothing of the state is left. -/
@[simp]
theorem reset_eq_fresh (state : State) : state.reset = fresh := by
  rw [reset, Tape.clear_eq_blank]
  rfl

/-- A copy has no part that differs. -/
@[simp]
theorem snapshot_eq (state : State) : state.snapshot = state := rfl

end State
end Machine
end LoopTape
