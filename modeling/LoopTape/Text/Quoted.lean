import LoopTape.Text.Printable

namespace LoopTape
namespace Text

/-!
# Quoted texts

A text is quoted so that a reader sees exactly which characters it holds.  It
stands between apostrophes, or between double quotes when it holds apostrophes
and no double quote.  Inside, a backslash and the mark in use are written after
a backslash, tabs and line ends by their letters, and every other character
that is not shown as itself by its code point in hexadecimal.  The number of
hexadecimal digits is two, four or eight, and the letter before them says which.
-/

/-- The mark around most texts. -/
def apostrophe : Char := '\x27'

/-- The mark around texts that hold an apostrophe and no double quote. -/
def doubleQuote : Char := '"'

/-- The mark that a text is quoted with. -/
def quoteMark (text : List Char) : Char :=
  if text.contains apostrophe && !text.contains doubleQuote then doubleQuote else apostrophe

/-- The hexadecimal digit of a number below sixteen. -/
def hexDigit (value : Nat) : Char :=
  if value < 10 then Char.ofNat (0x30 + value) else Char.ofNat (0x57 + value)

/-- The last hexadecimal digits of a number, as many as asked for. -/
def hexDigits : Nat -> Nat -> List Char
  | 0, _ => []
  | count + 1, number => hexDigits count (number / 16) ++ [hexDigit (number % 16)]

/-- A character as it is written between the given marks. -/
def quotedChar (mark character : Char) : List Char :=
  if character = mark || character = '\\' then ['\\', character]
  else if character = '\t' then ['\\', 't']
  else if character = '\n' then ['\\', 'n']
  else if character = '\r' then ['\\', 'r']
  else if isPrintable character then [character]
  else if character.toNat < 0x100 then '\\' :: 'x' :: hexDigits 2 character.toNat
  else if character.toNat < 0x10000 then '\\' :: 'u' :: hexDigits 4 character.toNat
  else '\\' :: 'U' :: hexDigits 8 character.toNat

/-- A text between marks. -/
def quoted (text : List Char) : List Char :=
  let mark := quoteMark text
  mark :: (text.flatMap (quotedChar mark) ++ [mark])

end Text
end LoopTape
