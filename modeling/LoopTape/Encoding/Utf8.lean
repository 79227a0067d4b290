import LoopTape.Encoding.Basic

namespace LoopTape
namespace Encoding

/-!
# Characters of one to four bytes

A byte below 128 is a character by itself.  Any other character is a leading
byte followed by one, two or three continuation bytes, each of which carries
six bits.  The leading byte says how many follow.  It also narrows the range
of the byte after it, so that no character has two forms, no form denotes a
surrogate, and none denotes a number past the last character.

The decoder goes through the bytes once.  Inside a sequence it holds what has
been read of it and the ranges of the bytes that it still awaits.
-/

/-- A range of bytes, first and last included. -/
structure ByteRange where
  low : UInt8
  high : UInt8
  deriving DecidableEq

def ByteRange.contains (range : ByteRange) (byte : UInt8) : Bool :=
  range.low ≤ byte && byte ≤ range.high

/-- The bytes that continue a sequence where nothing narrows them. -/
def continuation : ByteRange := ⟨0x80, 0xbf⟩

/-- What a leading byte announces: its share of the character's number, the
range of the next byte, and the ranges of the bytes after that. -/
structure Lead where
  bits : Nat
  next : ByteRange
  later : List ByteRange
  deriving DecidableEq

/-- What a byte from 128 up announces as the first byte of a sequence. -/
def lead? (byte : UInt8) : Option Lead :=
  if byte < 0xc2 then none
  else if byte < 0xe0 then some ⟨byte.toNat - 0xc0, continuation, []⟩
  else if byte = 0xe0 then some ⟨0, ⟨0xa0, 0xbf⟩, [continuation]⟩
  else if byte = 0xed then some ⟨0xd, ⟨0x80, 0x9f⟩, [continuation]⟩
  else if byte < 0xf0 then some ⟨byte.toNat - 0xe0, continuation, [continuation]⟩
  else if byte = 0xf0 then some ⟨0, ⟨0x90, 0xbf⟩, [continuation, continuation]⟩
  else if byte < 0xf4 then
    some ⟨byte.toNat - 0xf0, continuation, [continuation, continuation]⟩
  else if byte = 0xf4 then some ⟨4, ⟨0x80, 0x8f⟩, [continuation, continuation]⟩
  else none

/-- A sequence whose last byte has not been met. -/
structure Pending where
  /-- The leading byte and its position. -/
  first : UInt8
  start : Nat
  /-- The number of the character as far as it is known. -/
  bits : Nat
  next : ByteRange
  later : List ByteRange
  deriving DecidableEq

/-- The name of the code in messages. -/
def utf8Name : List Char := "utf-8".toList

/-- The number of a character with six more bits from a continuation byte. -/
def extend (bits : Nat) (byte : UInt8) : Nat := bits * 64 + (byte.toNat - 0x80)

/-- Decode the bytes from a position on, which may be inside a sequence.  The
characters before it are kept in reverse. -/
def decodeUtf8From (decoded : List Char) (position : Nat) (pending : Option Pending) :
    List UInt8 -> Except Fault (List Char)
  | [] =>
    match pending with
    | none => .ok decoded.reverse
    | some sequence =>
      .error ⟨utf8Name, sequence.first, sequence.start, position - 1, .unexpectedEnd⟩
  | byte :: rest =>
    match pending with
    | none =>
      if byte < 0x80 then
        decodeUtf8From (Char.ofNat byte.toNat :: decoded) (position + 1) none rest
      else
        match lead? byte with
        | none => .error ⟨utf8Name, byte, position, position, .invalidStart⟩
        | some lead =>
          decodeUtf8From decoded (position + 1)
            (some ⟨byte, position, lead.bits, lead.next, lead.later⟩) rest
    | some sequence =>
      if sequence.next.contains byte then
        match sequence.later with
        | [] =>
          decodeUtf8From (Char.ofNat (extend sequence.bits byte) :: decoded) (position + 1)
            none rest
        | next :: later =>
          decodeUtf8From decoded (position + 1)
            (some { sequence with bits := extend sequence.bits byte, next := next, later := later })
            rest
      else
        .error ⟨utf8Name, sequence.first, sequence.start, position - 1, .invalidContinuation⟩

/-- Decode characters of one to four bytes. -/
def decodeUtf8 (bytes : List UInt8) : Except Fault (List Char) := decodeUtf8From [] 0 none bytes

/-- The three bytes of the mark that may stand at the beginning of a file. -/
def byteOrderMark : List UInt8 := [0xef, 0xbb, 0xbf]

/-- Decode characters of one to four bytes after a mark, if there is one.
Positions are then counted from the end of the mark.  Bytes that are no more
than the beginning of a mark are taken for an empty text. -/
def decodeUtf8Signed (bytes : List UInt8) : Except Fault (List Char) :=
  if byteOrderMark.isPrefixOf bytes then decodeUtf8 (bytes.drop byteOrderMark.length)
  else if bytes.isPrefixOf byteOrderMark then .ok []
  else decodeUtf8 bytes

end Encoding
end LoopTape
