namespace LoopTape
namespace Text

/-!
# Signed indexes

A text is a list of characters, and a character is a Unicode scalar value.  Half of
a surrogate pair is no scalar value, so a text that holds one alone is not among
the texts here.  Nothing that is said of every text is said of such a one.

A position in a text may be given from either end: an index from zero up
counts from the front, and an index below zero counts back from the end, so
that `-1` names the last character.  A cut is forgiving and clamps, while the
look-up of one character is strict and refuses an index outside the text.

Two walks start at a signed index.  The walk upward goes on to the end of the
text.  When it starts below zero it first meets the last characters and then,
its index having reached zero, the whole text from the front.  The walk
downward stops before index zero, so from below zero it meets nothing.

An index is held in a word of 64 bits.  A strict look-up refuses an integer
that does not fit into the word before it asks whether it is in range.
-/

/-- The failure of a strict look-up. -/
inductive IndexFault where
  /-- The index names no character. -/
  | outOfRange
  /-- The integer is too large, or too far below zero, to be an index at all. -/
  | tooWide
  deriving DecidableEq

def IndexFault.message : IndexFault -> List Char
  | outOfRange => "string index out of range".toList
  | tooWide => "cannot fit 'int' into an index-sized integer".toList

/-- As many integers below zero can be indexes, and as many from zero on. -/
def indexRange : Nat := Nat.pow 2 63

/-- The failure of a strict look-up at an index that names no character. -/
def indexFault (index : Int) : IndexFault :=
  if -(indexRange : Int) ≤ index ∧ index < indexRange then .outOfRange else .tooWide

/-- The place in a text of the given length that a signed index names. -/
def place? (length : Nat) (index : Int) : Option Nat :=
  if 0 ≤ index then
    if index < length then some index.toNat else none
  else
    if -(length : Int) ≤ index then some (length + index).toNat else none

/-- The character at a signed index. -/
def charAt? (text : List Char) (index : Int) : Option Char :=
  (place? text.length index).bind (fun place => text[place]?)

/-- The text in front of a signed position.  A position beyond either end is
moved to that end. -/
def before (text : List Char) (position : Int) : List Char :=
  if 0 ≤ position then text.take position.toNat
  else text.take (text.length + position).toNat

/-- The characters that a walk upward from an index meets, in order. -/
def upward (text : List Char) (start : Int) : Except IndexFault (List Char) :=
  if 0 ≤ start then .ok (text.drop start.toNat)
  else if -(text.length : Int) ≤ start then
    .ok (text.drop (text.length + start).toNat ++ text)
  else .error (indexFault start)

/-- The characters that a walk downward from an index meets, in order. -/
def downward (text : List Char) (start : Int) : Except IndexFault (List Char) :=
  if start < 0 then .ok []
  else if start < text.length then .ok (text.take (start.toNat + 1)).reverse
  else .error (indexFault start)

/-! ## Looking up from the front -/

/-- From zero on a strict look-up finds what stands at the index, or nothing. -/
theorem bind_place?_of_nonneg {α : Type} (items : List α) {index : Int} (nonneg : 0 ≤ index) :
    (place? items.length index).bind (fun place => items[place]?) = items[index.toNat]? := by
  rw [place?, if_pos nonneg]
  by_cases inside : index < items.length
  · rw [if_pos inside]
    rfl
  · rw [if_neg inside, List.getElem?_eq_none (by omega)]
    rfl

end Text
end LoopTape
