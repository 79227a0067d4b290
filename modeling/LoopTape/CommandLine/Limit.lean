import LoopTape.Text.Decimal
import LoopTape.Text.Numeral
import LoopTape.Text.Quoted

namespace LoopTape
namespace CommandLine

/-!
# The step limit of a run

The limit of a run is the value of its option.  Where the option is not given
the environment is asked, and where the environment says nothing, or nothing
but blanks, the run has no limit.  A limit that has been given must not be
negative, wherever it was given.

The option shields the run from the environment: what stands there is not even
looked at.
-/

/-- The variable of the environment that holds a limit. -/
def limitVariable : List Char := "BFCORE_STEP_LIMIT".toList

/-- Why there is no valid limit. -/
inductive LimitFault where
  /-- The environment holds a text that is no integer. -/
  | notInteger (text : List Char)
  | negative (value : Int)
  deriving DecidableEq

def LimitFault.message : LimitFault -> List Char
  | notInteger text => limitVariable ++ " must be an integer, got ".toList ++ Text.quoted text
  | negative value => "step limit must be >= 0, got ".toList ++ Text.decimal value

/-- The limit that the environment asks for. -/
def environmentLimit (environment : Option (List Char)) : Except LimitFault (Option Int) :=
  match Text.strip (environment.getD []) with
  | [] => .ok none
  | text =>
    match Text.integer? text with
    | none => .error (.notInteger text)
    | some value => .ok (some value)

/-- A limit that has been given, as the number of steps it allows. -/
def checkLimit : Option Int -> Except LimitFault (Option Nat)
  | none => .ok none
  | some value => if value < 0 then .error (.negative value) else .ok (some value.toNat)

/-- The limit of a run. -/
def stepLimit (given : Option Int) (environment : Option (List Char)) :
    Except LimitFault (Option Nat) :=
  match given with
  | some value => checkLimit (some value)
  | none =>
    match environmentLimit environment with
    | .error fault => .error fault
    | .ok asked => checkLimit asked

end CommandLine
end LoopTape
