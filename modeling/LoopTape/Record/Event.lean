import LoopTape.Bracket.Body
import LoopTape.Machine.Run
import LoopTape.Text.Decimal
import LoopTape.Tree.Basic

namespace LoopTape
namespace Record

/-!
# Events

While texts are read and run, events are noted for whoever wants to follow.
Every event belongs to a channel: reading, running, or the records that sum up
either of them.  An event is kept as what happened, and its words are made only
when it is written.
-/

/-- Who notes an event. -/
inductive Channel where
  | reading
  | running
  | summary
  deriving DecidableEq

/-- What happened. -/
inductive Event where
  /-- A text was read into a tree. -/
  | parsed (characters nodes : Nat)
  /-- A run began. -/
  | evaluating (characters : Nat) (limit : Option Nat)
  /-- A run came to the end of its text. -/
  | finished (steps pointer : Nat)
  | parseFailed (message : List Char)
  | evaluationFailed (message : List Char)
  deriving DecidableEq

namespace Event

def channel : Event -> Channel
  | parsed _ _ => .reading
  | evaluating _ _ => .running
  | finished _ _ => .running
  | parseFailed _ => .summary
  | evaluationFailed _ => .summary

/-- The words of an event. -/
def text : Event -> List Char
  | parsed characters nodes =>
    "parsed ".toList ++ Text.natural characters ++ " chars into ".toList ++
      Text.natural nodes ++ " top-level nodes".toList
  | evaluating characters limit =>
    "evaluating ".toList ++ Text.natural characters ++ " chars (max_steps=".toList ++
      (limit.map Text.natural).getD "None".toList ++ ")".toList
  | finished steps pointer =>
    "finished after ".toList ++ Text.natural steps ++ " steps, pointer=".toList ++
      Text.natural pointer
  | parseFailed message => "parse failed: ".toList ++ message
  | evaluationFailed message => "evaluation failed: ".toList ++ message

end Event

/-- The name under which a channel writes. -/
def Channel.name : Channel -> List Char
  | reading => "bfcore.parser".toList
  | running => "bfcore.evaluator".toList
  | summary => "bfcore.api".toList

/-- An event as a line of a log. -/
def Event.line (event : Event) : List Char :=
  event.channel.name ++ ": ".toList ++ event.text

/-- A line of a log with its level.  All events are of use for debugging only. -/
def Event.leveled (event : Event) : List Char := "DEBUG ".toList ++ event.line

/-- What is noted when a text has been read: nothing when it could not be. -/
def readingEvents (source : List Char) (result : Except Bracket.Unmatched Tree) : List Event :=
  match result with
  | .ok tree => [.parsed source.length tree.length]
  | .error _ => []

/-- What is noted of a run: its beginning, and its end when it has not failed. -/
def runningEvents (machine : Machine) (finish : Machine.Finish) : List Event :=
  .evaluating machine.source.length machine.limit ::
    match finish.fault with
    | none => [.finished finish.state.steps finish.state.tape.pointer.val]
    | some _ => []

end Record
end LoopTape
