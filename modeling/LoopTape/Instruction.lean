namespace LoopTape

/-!
# Instructions

A program is a text of Unicode scalar values; half of a surrogate pair by
itself stands in no program here.  Eight of the characters are instructions for a
machine with a tape; every other character is a comment.  The relation between the
eight instructions and their characters is one to one, and the two lemmas
at the end of the first section say so: reading what was written gives the
instruction back, and only the written character is read as it.
-/

/-- The eight instructions, in the order in which their characters are listed. -/
inductive Instruction where
  /-- Add one to the cell under the pointer. -/
  | increment
  /-- Subtract one from the cell under the pointer. -/
  | decrement
  /-- Move the pointer one cell down the tape. -/
  | left
  /-- Move the pointer one cell up the tape. -/
  | right
  /-- Open a loop: skip past its end when the cell is zero. -/
  | loopStart
  /-- Close a loop: go back to just after its start when the cell is not zero. -/
  | loopStop
  /-- Ask for input.  The machine accepts the request and reads nothing. -/
  | input
  /-- Print the cell under the pointer. -/
  | print
  deriving DecidableEq

namespace Instruction

/-! ## The characters of the instructions -/

/-- The character that stands for an instruction in a program. -/
def toChar : Instruction -> Char
  | increment => '+'
  | decrement => '-'
  | left => '<'
  | right => '>'
  | loopStart => '['
  | loopStop => ']'
  | input => ','
  | print => '.'

/-- The instruction that a character stands for; a comment stands for none. -/
def ofChar? : Char -> Option Instruction
  | '+' => some increment
  | '-' => some decrement
  | '<' => some left
  | '>' => some right
  | '[' => some loopStart
  | ']' => some loopStop
  | ',' => some input
  | '.' => some print
  | _ => none

/-- The instruction that a whole text stands for.  Only a text of exactly one
character can stand for one: the empty text and longer texts are comments. -/
def ofText? : List Char -> Option Instruction
  | [character] => ofChar? character
  | _ => none

theorem ofChar?_toChar (instruction : Instruction) :
    ofChar? instruction.toChar = some instruction := by
  cases instruction <;> rfl

theorem toChar_of_ofChar? {character : Char} {instruction : Instruction}
    (reads : ofChar? character = some instruction) : instruction.toChar = character := by
  unfold ofChar? at reads
  split at reads <;> cases reads <;> rfl

/-- A character stands for an instruction exactly when it is its character. -/
theorem ofChar?_eq_some_iff (character : Char) (instruction : Instruction) :
    ofChar? character = some instruction ↔ character = instruction.toChar := by
  constructor
  · intro reads
    exact (toChar_of_ofChar? reads).symm
  · intro written
    rw [written, ofChar?_toChar]

/-! ## The alphabet -/

/-- Every instruction, in the order of the type. -/
def all : List Instruction :=
  [increment, decrement, left, right, loopStart, loopStop, input, print]

/-- The characters that are not comments. -/
def alphabet : List Char := all.map toChar

/-- Whether a character is an instruction rather than a comment. -/
def isCode (character : Char) : Bool := (ofChar? character).isSome

/-- The instructions of a text with the comments between them removed. -/
def codeOnly (text : List Char) : List Char := text.filter isCode

theorem isCode_of_ofChar? {character : Char} {instruction : Instruction}
    (reads : ofChar? character = some instruction) : isCode character = true := by
  rw [isCode, reads, Option.isSome_some]

theorem not_isCode_of_ofChar? {character : Char} (comment : ofChar? character = none) :
    isCode character = false := by
  rw [isCode, comment, Option.isSome_none]

theorem codeOnly_append (front back : List Char) :
    codeOnly (front ++ back) = codeOnly front ++ codeOnly back :=
  List.filter_append front back

theorem codeOnly_cons_of_code {character : Char} (code : isCode character = true)
    (rest : List Char) : codeOnly (character :: rest) = character :: codeOnly rest :=
  List.filter_cons_of_pos code

theorem codeOnly_cons_of_comment {character : Char} (comment : isCode character = false)
    (rest : List Char) : codeOnly (character :: rest) = codeOnly rest :=
  List.filter_cons_of_neg (Bool.eq_false_iff.mp comment)

end Instruction
end LoopTape
