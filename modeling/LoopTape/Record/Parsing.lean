import LoopTape.Record.Event
import LoopTape.Report.Failure
import LoopTape.Tree.Reading

namespace LoopTape
namespace Record

/-!
# Records of readings

A record sums up the reading of a text without failing itself.  It holds
either a tree and an empty error text, or no tree and the message of the
failure.  The message is never empty, so the error text alone tells the two
apart.
-/

/-- The record of a reading. -/
structure Parsing where
  result : Option Tree
  errorText : List Char
  deriving DecidableEq

/-- Whether the text could be read. -/
def Parsing.ok (record : Parsing) : Bool := record.errorText.isEmpty

/-- The record of a result of reading. -/
def Parsing.ofResult (source : List Char) (result : Except Bracket.Unmatched Tree) : Parsing :=
  match result with
  | .ok tree => ⟨some tree, []⟩
  | .error bracket => ⟨none, (Report.Failure.ofUnmatched source bracket).message⟩

/-- Read a text and sum up. -/
def parse (source : List Char) : Parsing := .ofResult source (Tree.read source)

/-- What is noted while a text is read and summed up. -/
def parseEvents (source : List Char) : List Event :=
  let result := Tree.read source
  readingEvents source result ++
    match result with
    | .ok _ => []
    | .error bracket => [.parseFailed (Report.Failure.ofUnmatched source bracket).message]

end Record
end LoopTape
