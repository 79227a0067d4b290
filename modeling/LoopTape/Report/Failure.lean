import LoopTape.Bracket.Body
import LoopTape.Machine.Basic
import LoopTape.Report.Excerpt

namespace LoopTape
namespace Report

/-!
# Failures and their reports

What can go wrong with a text is known by its cause: a bracket without a
partner, or a budget used up.  A failure is what is told about it.  It has a
message, and for a bracket also the place of the bracket and an excerpt of the
text around it.  A report of such a failure puts all of this together and ends
with a hint.

Failures are values of their own.  They can also be built by hand, with any
place and any excerpt, and a report without an excerpt is its first line alone.
-/

/-- What is told about a bracket without a partner. -/
structure UnterminatedLoop where
  message : List Char
  position : Int := -1
  line : Int := 0
  column : Int := 0
  context : List Char := []
  deriving DecidableEq

/-- What is told about a budget that has been used up. -/
structure StepLimit where
  message : List Char
  steps : Int := 0
  limit : Int := 0
  deriving DecidableEq

/-- A failure of a text. -/
inductive Failure where
  /-- A failure that has a message and nothing more. -/
  | general (message : List Char)
  | unterminated (loop : UnterminatedLoop)
  | stepLimit (budget : StepLimit)
  deriving DecidableEq

/-- The message about a bracket without a partner. -/
def unterminatedMessage : List Char := "unterminated loop".toList

/-- The last line of a report about a bracket without a partner. -/
def bracketHint : List Char :=
  ("Hint: every '[' needs a matching ']' " ++
    "(and a ']' that jumps back needs an earlier '[').").toList

/-- The failure of the bracket at a signed position of a text. -/
def UnterminatedLoop.at (source : List Char) (position : Int) : UnterminatedLoop :=
  let place := Text.locate source position
  { message := unterminatedMessage
    position := position
    line := place.line
    column := place.column
    context := excerptText (Text.lines source) place.line contextLines }

/-- The first line of a report: the message and the place. -/
def UnterminatedLoop.head (loop : UnterminatedLoop) : List Char :=
  loop.message ++ " (line ".toList ++ Text.decimal loop.line ++ ", column ".toList ++
    Text.decimal loop.column ++ ")".toList

/-- The whole report. -/
def UnterminatedLoop.report (loop : UnterminatedLoop) : List Char :=
  if loop.context.isEmpty then loop.head
  else Text.unlines [loop.head, loop.context, bracketHint]

/-- The whole report, where the numbers in it may be of any size. -/
def UnterminatedLoop.checkedReport (loop : UnterminatedLoop) :
    Except Text.NumeralFault (List Char) :=
  if Text.isWritable loop.line && Text.isWritable loop.column then .ok loop.report
  else .error .tooManyDigits

/-- The failure of a run that was about to exceed its budget. -/
def StepLimit.exceeded (steps limit : Int) : StepLimit where
  message := "step limit exceeded (".toList ++ Text.decimal limit ++ " steps)".toList
  steps := steps
  limit := limit

namespace Failure

/-- The message of a failure. -/
def message : Failure -> List Char
  | general message => message
  | unterminated loop => loop.message
  | stepLimit budget => budget.message

/-- All that is printed about a failure. -/
def report : Failure -> List Char
  | unterminated loop => loop.report
  | failure => failure.message

/-- What is told about a bracket of a text that was found without a partner. -/
def ofUnmatched (source : List Char) (bracket : Bracket.Unmatched) : Failure :=
  .unterminated (.at source bracket.position)

/-- What is told about a fault of a machine. -/
def ofFault (source : List Char) : Machine.Fault -> Failure
  | .unmatched position => .unterminated (.at source position)
  | .overBudget steps limit => .stepLimit (.exceeded steps limit)

end Failure
end Report
end LoopTape
