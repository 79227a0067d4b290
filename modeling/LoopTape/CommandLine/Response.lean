import LoopTape.CommandLine.Arguments
import LoopTape.CommandLine.Dump
import LoopTape.CommandLine.Limit
import LoopTape.Files.Directory
import LoopTape.Record.Event
import LoopTape.Report.Failure
import LoopTape.Tree.Listing
import LoopTape.Tree.Measure
import LoopTape.Tree.Reading

namespace LoopTape
namespace CommandLine

/-!
# Responses

A command line is answered with an exit code and with what is printed on the
two channels.  Much can be answered before any file is read: a call for help,
a complaint about the words, and a limit that is not valid.  What is left is
work on the text of a file.

A text that cannot be read, and a text that fails, are answered with an error
and nothing on the first channel.  What a run had printed before it failed is
not shown.

Some failures are not answered at all.  A path with a null character cannot be
looked for, and an option that was left without an amount cannot be compared
with zero when its turn comes.  The same would become of a dump that cannot be
written, but a cell is never too large for that.
-/

/-- What the caller gets. -/
structure Response where
  exit : Nat
  stdout : List Char := []
  stderr : List Char := []
  deriving DecidableEq

/-- A failure that is not answered. -/
inductive Escape where
  /-- The path has a null character in it. -/
  | embeddedNull
  /-- The limit is compared with zero and there is no amount. -/
  | limitDropped
  /-- The number of cells to dump is compared with zero and there is no amount. -/
  | dumpDropped
  /-- A number in the dump has too many digits. -/
  | unwritable (fault : Text.NumeralFault)
  deriving DecidableEq

def Escape.message : Escape -> List Char
  | embeddedNull => "embedded null byte".toList
  | limitDropped => "'<' not supported between instances of 'list' and 'int'".toList
  | dumpDropped => "'>' not supported between instances of 'list' and 'int'".toList
  | unwritable fault => fault.message

/-- How a command line ends. -/
inductive Ending where
  | answered (response : Response)
  | escaped (escape : Escape)
  deriving DecidableEq

/-- The exit code of a command line that has been refused. -/
def usageExit : Nat := 2

/-- The exit code of work that has failed. -/
def failureExit : Nat := 1

/-- The answer to a command line that asks for no work. -/
def Stop.response : Stop -> Response
  | .help page => { exit := 0, stdout := page.help }
  | .refused page complaint =>
    { exit := usageExit
      stderr := page.usage ++ page.program ++ ": error: ".toList ++ complaint.message page ++
        ['\n'] }

/-- An error line about work that has failed. -/
def errorLine (text : List Char) : List Char := "Error: ".toList ++ text ++ ['\n']

/-! ## What is known before a file is read -/

/-- Work on the text of a file. -/
inductive Job where
  | run (limit : Option Nat) (dump : Amount) (stats : Bool)
  | parse (tree : Bool)
  deriving DecidableEq

/-- A job, the file to read, and whether to log. -/
structure Plan where
  file : List Char
  verbose : Bool
  job : Job
  deriving DecidableEq

/-- The plan of a run with a given limit, if the limit is valid. -/
def Task.runPlan (task : Task) (given : Option Int) (environment : Option (List Char)) :
    Except Ending Plan :=
  match stepLimit given environment with
  | .error fault =>
    .error (.answered { exit := failureExit, stderr := errorLine fault.message })
  | .ok limit =>
    .ok ⟨task.file, task.choices.verbose, .run limit task.choices.dump task.choices.stats⟩

/-- The plan of a task, or the ending that makes a plan needless. -/
def Task.plan (task : Task) (environment : Option (List Char)) : Except Ending Plan :=
  match task.page with
  | .run =>
    match task.choices.maxSteps with
    | none => task.runPlan none environment
    | some (.number value) => task.runPlan (some value) environment
    | some .dropped => .error (.escaped .limitDropped)
  | _ => .ok ⟨task.file, task.choices.verbose, .parse task.choices.tree⟩

/-- The plan of a command line, or the ending that makes a plan needless. -/
def plan (arguments : List (List Char)) (environment : Option (List Char)) :
    Except Ending Plan :=
  match readArguments arguments with
  | .error stop => .error (.answered stop.response)
  | .ok task => task.plan environment

/-! ## Work on a text -/

/-- The lines of a log, if there is to be one. -/
def logLines (verbose : Bool) (events : List Record.Event) : List Char :=
  if verbose then events.flatMap (fun event => event.line ++ ['\n']) else []

/-- The error line about a text that failed. -/
def failureLine (failure : Report.Failure) : List Char := errorLine failure.report

/-- The answer to a job of reading. -/
def parseResponse (verbose tree : Bool) (source : List Char) : Response :=
  let result := Tree.read source
  let log := logLines verbose (Record.readingEvents source result)
  match result with
  | .error bracket =>
    { exit := failureExit
      stderr := log ++ failureLine (Report.Failure.ofUnmatched source bracket) }
  | .ok nodes =>
    let census := nodes.census
    { exit := 0
      stdout := "ok: ".toList ++ Text.natural census.leaves ++ " leaves, ".toList ++
        Text.natural census.loops ++ " loops, depth ".toList ++ Text.natural nodes.depth ++
        ['\n'] ++ (if tree then nodes.listing ++ ['\n'] else [])
      stderr := log }

/-- A time in hundredths of a millisecond, in milliseconds with two places. -/
def milliseconds (elapsed : Nat) : List Char :=
  Text.natural (elapsed / 100) ++ '.' :: Text.natural (elapsed / 10 % 10) ++
    Text.natural (elapsed % 10)

/-- The lines about the cost of a run. -/
def statisticsText (elapsed : Nat) (state : Machine.State) : List Char :=
  "\n================\nExecution took ".toList ++ milliseconds elapsed ++ " ms, ".toList ++
    Text.natural state.steps ++ " steps, pointer at ".toList ++
    Text.natural state.tape.pointer.val ++ ['\n']

/-- The first cells of a tape, as many as asked for and as there are. -/
def firstCells (count : Int) (tape : Tape) : List Int :=
  (tape.cells.toList.take count.toNat).map (fun cell => (cell.toNat : Int))

/-- The answer to a run that failed. -/
def failedResponse (verbose : Bool) (machine : Machine) (finish : Machine.Finish)
    (fault : Machine.Fault) : Response where
  exit := failureExit
  stderr := logLines verbose (Record.runningEvents machine finish) ++
    failureLine (Report.Failure.ofFault machine.source fault)

/-- What is printed of a tape.  An amount that is not above zero asks for nothing. -/
def dumpLines (count : Int) (tape : Tape) : Except Text.NumeralFault (List Char) :=
  if 0 < count then (dumpText (firstCells count tape)).map (fun dump => dump ++ ['\n'])
  else .ok []

/-- The answer to a run that came to the end of its text, with what is printed of its tape. -/
def finishedResponse (verbose stats : Bool) (dumped : List Char) (machine : Machine)
    (elapsed : Nat) (finish : Machine.Finish) : Response where
  exit := 0
  stdout := finish.state.output
  stderr := logLines verbose (Record.runningEvents machine finish) ++
    (if stats then statisticsText elapsed finish.state else []) ++ dumped

/-- How a run that has finished after the given time is answered.  The amount
to dump is not asked for when the run failed. -/
def runEnding (verbose stats : Bool) (dump : Amount) (machine : Machine) (elapsed : Nat)
    (finish : Machine.Finish) : Ending :=
  match finish.fault with
  | some fault => .answered (failedResponse verbose machine finish fault)
  | none =>
    match dump with
    | .number count =>
      match dumpLines count finish.state.tape with
      | .error fault => .escaped (.unwritable fault)
      | .ok dumped => .answered (finishedResponse verbose stats dumped machine elapsed finish)
    | .dropped => .escaped .dumpDropped

/-- How a job on a text ends, once the time that the job took is known.  A run
without a limit is given up after `patience` steps and does not end then. -/
def Job.ending (job : Job) (verbose : Bool) (source : List Char) (patience : Nat) :
    Option (Nat -> Ending) :=
  match job with
  | .parse tree => some (fun _ => .answered (parseResponse verbose tree source))
  | .run limit dump stats =>
    let machine : Machine := ⟨source, limit⟩
    (machine.execute patience).map (fun finish elapsed =>
      runEnding verbose stats dump machine elapsed finish)

/-! ## The whole command line -/

/-- The answer about a file that could not be read. -/
def unreadable (file : List Char) (fault : Files.ReadFault) : Ending :=
  match fault with
  | .cannotOpen .notFound _ =>
    .answered
      { exit := failureExit, stderr := "Couldn't find file ".toList ++ file ++ ['\n'] }
  | .cannotOpen .embeddedNull _ => .escaped .embeddedNull
  | fault =>
    .answered
      { exit := failureExit
        stderr := errorLine ("cannot read ".toList ++ file ++ ": ".toList ++ fault.message) }

/-- How a plan ends, once its file has been read or found unreadable, and once
the time that the work took is known. -/
def Plan.ending (plan : Plan) (source : Except Files.ReadFault (List Char)) (patience : Nat) :
    Option (Nat -> Ending) :=
  match source with
  | .error fault => some (fun _ => unreadable plan.file fault)
  | .ok text => plan.job.ending plan.verbose text patience

/-- The file name that stands for the standard input. -/
def standardInput : List Char := ['-']

/-- The code that files are read in. -/
def fileCodec : Encoding.Codec := .utf8

/-- The text of a file, whose bytes are looked up by path. -/
def sourceText (file : List Char) (bytes : Except Files.OpenFault (List UInt8)) :
    Except Files.ReadFault (List Char) :=
  match bytes with
  | .error fault => .error (.cannotOpen fault file)
  | .ok bytes => (Encoding.readText fileCodec bytes).mapError .undecodable

/-- What a file name stands for: the standard input or a file of the directory. -/
def lookUp (directory : Files.Directory) (input : List UInt8) (file : List Char) :
    Except Files.OpenFault (List UInt8) :=
  if file = standardInput then .ok input else directory.fileBytes file

/-- Answer a command line in a given directory, with a given standard input
and a given limit in the environment. -/
def answer (arguments : List (List Char)) (environment : Option (List Char))
    (directory : Files.Directory) (input : List UInt8) (patience elapsed : Nat) :
    Option Ending :=
  match plan arguments environment with
  | .error ending => some ending
  | .ok plan =>
    (plan.ending (sourceText plan.file (lookUp directory input plan.file)) patience).map
      (fun ending => ending elapsed)

end CommandLine
end LoopTape
