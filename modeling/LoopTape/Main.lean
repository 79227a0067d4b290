import LoopTape.CommandLine.Response

namespace LoopTape
namespace CommandLine

/-!
# The program

What is answered is decided elsewhere.  Here the environment, the files and the
clock of the system are asked, and the answer is written to the two channels.
-/

/-- More steps than any run can take while somebody waits for it. -/
def patience : Nat := Nat.pow 2 62

/-- The reason behind a number that the system gives for not opening a file.
Some calls give the number with its sign exchanged. -/
def openFault? (code : UInt32) : Option Files.OpenFault :=
  match code.toInt32.toInt.natAbs with
  | 2 => some .notFound
  | 20 => some .notDirectory
  | 21 => some .isDirectory
  | 36 => some .nameTooLong
  | _ => none

/-- The number that the system gives for an error, if it gives one. -/
def systemCode? : IO.Error -> Option UInt32
  | .noFileOrDirectory _ code _ => some code
  | .inappropriateType _ code _ => some code
  | .invalidArgument _ code _ => some code
  | _ => none

/-- The bytes of the file that a name stands for. -/
def readBytes (file : List Char) : IO (Except Files.OpenFault (List UInt8)) := do
  if file = standardInput then
    let input ← IO.getStdin
    return .ok (← input.readBinToEnd).toList
  try
    return .ok (← IO.FS.readBinFile (String.ofList file)).toList
  catch failure =>
    match (systemCode? failure).bind openFault? with
    | some fault => return .error fault
    | none => throw failure

/-- Write an answer to the two channels. -/
def write (response : Response) : IO UInt32 := do
  IO.print (String.ofList response.stdout)
  (← IO.getStdout).flush
  IO.eprint (String.ofList response.stderr)
  return UInt32.ofNat response.exit

/-- Write the end of a command line. -/
def conclude : Ending -> IO UInt32
  | .answered response => write response
  | .escaped escape => write { exit := failureExit, stderr := errorLine escape.message }

/-- Carry out a plan and measure the time from before the work until after it. -/
def carryOut (plan : Plan) : IO UInt32 := do
  let source := sourceText plan.file (← readBytes plan.file)
  let started ← IO.monoNanosNow
  match plan.ending source patience with
  | none => return UInt32.ofNat failureExit
  | some ending =>
    let stopped ← IO.monoNanosNow
    conclude (ending ((stopped - started) / 10000))

end CommandLine
end LoopTape

open LoopTape.CommandLine in
/-- Answer the words of the command line. -/
def main (arguments : List String) : IO UInt32 := do
  let environment ← IO.getEnv (String.ofList limitVariable)
  match plan (arguments.map String.toList) (environment.map String.toList) with
  | .error ending => conclude ending
  | .ok plan => carryOut plan
