import LoopTape.Files.Directory
import LoopTape.Record.Evaluation
import LoopTape.Record.Parsing

namespace LoopTape
namespace Record

/-!
# Records of files

A record of a file is the record of its text.  The text is read first, in the
code that is asked for.  A file that cannot be read has no record, and why it
cannot be read is told instead of anything about the text.  A budget below zero
is noticed only after the file has been read.
-/

/-- Run a text within a requested budget and sum up. -/
def evaluateWithin (source : List Char) (requested : Option Int) (patience : Nat) :
    Except Machine.NegativeLimit (Option Evaluation) :=
  (Machine.build source requested).map (fun machine => evaluate machine patience)

/-- Why there is no record of a run of a file. -/
inductive FileFault where
  | unreadable (fault : Files.ReadFault)
  | negativeLimit (failure : Machine.NegativeLimit)
  deriving DecidableEq

/-- Read the text of a file and sum up how it can be read as a program. -/
def parseFile (directory : Files.Directory) (path encoding : List Char) :
    Except Files.ReadFault Parsing :=
  (directory.readText path encoding).map parse

/-- Run the text of a file within a requested budget and sum up. -/
def evaluateFile (directory : Files.Directory) (path encoding : List Char)
    (requested : Option Int) (patience : Nat) : Except FileFault (Option Evaluation) :=
  match directory.readText path encoding with
  | .error fault => .error (.unreadable fault)
  | .ok source => (evaluateWithin source requested patience).mapError .negativeLimit

end Record
end LoopTape
