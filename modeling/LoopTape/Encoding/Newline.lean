namespace LoopTape
namespace Encoding

/-!
# Line ends

A line may be ended by a line feed, by a carriage return, or by a carriage
return with a line feed after it.  A text that has been read from bytes knows
only line feeds, and each of the three has become one of them.
-/

/-- A text with every line end written as one line feed. -/
def unifyNewlines : List Char -> List Char
  | [] => []
  | '\r' :: '\n' :: rest => '\n' :: unifyNewlines rest
  | '\r' :: rest => '\n' :: unifyNewlines rest
  | character :: rest => character :: unifyNewlines rest

end Encoding
end LoopTape
