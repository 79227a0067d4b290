import LoopTape.Instruction

namespace LoopTape
namespace Bracket

/-!
# The matching of a text

All pairs of brackets are found in one pass over the text.  An opening bracket
is put on top of those that are pending.  A closing bracket takes the topmost
pending one as its partner, and where none is pending it stays without one.
What is still pending at the end stays without a partner too.

This is what it means for two brackets to belong together.  The scans look for
one partner at a time and know nothing of the pending brackets.
-/

/-- The pairs of a text that follows on `position` characters, when the given
opening brackets are pending, topmost first. -/
def pairsFrom (position : Nat) (pending : List Nat) : List Char -> List (Nat × Nat)
  | [] => []
  | character :: rest =>
    match Instruction.ofChar? character with
    | some .loopStart => pairsFrom (position + 1) (position :: pending) rest
    | some .loopStop =>
      match pending with
      | [] => pairsFrom (position + 1) [] rest
      | start :: pending => (start, position) :: pairsFrom (position + 1) pending rest
    | _ => pairsFrom (position + 1) pending rest

/-- The pairs of a text, each an opening bracket with its closing bracket, in
the order of the closing brackets. -/
def pairs (text : List Char) : List (Nat × Nat) := pairsFrom 0 [] text

/-- The closing bracket that belongs to the opening bracket at a position. -/
def closingPartner? (text : List Char) (start : Nat) : Option Nat :=
  ((pairs text).find? (fun pair => pair.1 == start)).map Prod.snd

/-- The opening bracket that belongs to the closing bracket at a position. -/
def openingPartner? (text : List Char) (stop : Nat) : Option Nat :=
  ((pairs text).find? (fun pair => pair.2 == stop)).map Prod.fst

end Bracket
end LoopTape
