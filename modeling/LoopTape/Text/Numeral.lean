import LoopTape.Text.Blank
import LoopTape.Text.Decimal
import LoopTape.Text.Digit

namespace LoopTape
namespace Text

/-!
# Reading integers

An integer may have blanks around it, a sign in front, and digits of any
script, mixed at will.  A single underscore may stand between two digits.
Leading zeros are allowed.  The four separators are not skipped here, although
they count as blanks elsewhere.

The number of digits is limited, leading zeros included and underscores not,
so that reading stays cheap.
-/

/-- The digits after a digit: more digits, each perhaps with one underscore in
front.  The underscore must be followed by a digit. -/
def moreDigits? : List Char -> Option (List Nat)
  | [] => some []
  | '_' :: character :: rest =>
    match digit? character, moreDigits? rest with
    | some value, some values => some (value :: values)
    | _, _ => none
  | character :: rest =>
    match digit? character, moreDigits? rest with
    | some value, some values => some (value :: values)
    | _, _ => none

/-- The digits of a whole text, which must begin with one. -/
def digits? : List Char -> Option (List Nat)
  | [] => none
  | character :: rest =>
    match digit? character, moreDigits? rest with
    | some value, some values => some (value :: values)
    | _, _ => none

/-- The number that decimal digits denote, most significant digit first. -/
def ofDigits (digits : List Nat) : Nat :=
  digits.foldl (fun number value => 10 * number + value) 0

/-- The natural number that a text of digits denotes, if there are not too many. -/
def natural? (text : List Char) : Option Nat :=
  match digits? text with
  | some digits => if digits.length ≤ digitLimit then some (ofDigits digits) else none
  | none => none

/-- The integer that a text denotes. -/
def integer? (text : List Char) : Option Int :=
  match trim (fun character => isBlank character && !isSeparator character) text with
  | '-' :: rest => (natural? rest).map (fun number => -(number : Int))
  | '+' :: rest => (natural? rest).map (fun number => (number : Int))
  | text => (natural? text).map (fun number => (number : Int))

end Text
end LoopTape
