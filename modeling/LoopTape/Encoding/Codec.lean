import LoopTape.Encoding.Newline
import LoopTape.Encoding.Utf8

namespace LoopTape
namespace Encoding

/-!
# Codes and their names

Four codes are known, each by one name.  Two of them have one byte to each
character: the code of seven bits, which refuses every byte from 128 up, and
the code in which every byte is the character with its number.  The other two
have characters of one to four bytes, with or without a mark in front.
-/

/-- The codes that bytes can be read as. -/
inductive Codec where
  | utf8
  | utf8Signed
  | ascii
  | latin1
  deriving DecidableEq

namespace Codec

/-- The name by which a code is asked for. -/
def name : Codec -> List Char
  | utf8 => "utf-8".toList
  | utf8Signed => "utf-8-sig".toList
  | ascii => "ascii".toList
  | latin1 => "latin-1".toList

def all : List Codec := [utf8, utf8Signed, ascii, latin1]

/-- The code with a given name. -/
def ofName? (wanted : List Char) : Option Codec := all.find? (fun codec => codec.name == wanted)

theorem ofName?_name (codec : Codec) : ofName? codec.name = some codec := by
  cases codec <;> decide

end Codec

/-- Decode seven-bit characters from a position on. -/
def decodeAsciiFrom (decoded : List Char) (position : Nat) :
    List UInt8 -> Except Fault (List Char)
  | [] => .ok decoded.reverse
  | byte :: rest =>
    if byte < 0x80 then
      decodeAsciiFrom (Char.ofNat byte.toNat :: decoded) (position + 1) rest
    else .error ⟨Codec.ascii.name, byte, position, position, .notSevenBit⟩

/-- Each byte as the character with its number. -/
def decodeLatin1 (bytes : List UInt8) : List Char :=
  bytes.map (fun byte => Char.ofNat byte.toNat)

/-- The characters that bytes denote in a code. -/
def decode (codec : Codec) (bytes : List UInt8) : Except Fault (List Char) :=
  match codec with
  | .utf8 => decodeUtf8 bytes
  | .utf8Signed => decodeUtf8Signed bytes
  | .ascii => decodeAsciiFrom [] 0 bytes
  | .latin1 => .ok (decodeLatin1 bytes)

/-- The text that bytes denote in a code, with its line ends unified. -/
def readText (codec : Codec) (bytes : List UInt8) : Except Fault (List Char) :=
  (decode codec bytes).map unifyNewlines

end Encoding
end LoopTape
