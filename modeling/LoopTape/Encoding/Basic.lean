import LoopTape.Text.Decimal
import LoopTape.Text.Quoted

namespace LoopTape
namespace Encoding

/-!
# Decoding faults

Decoding is strict.  The first byte sequence that is not the form of any
character ends it, and the fault says which bytes are to blame and why.  The
bytes are given by their positions, first and last included, and a single byte
also by its value.
-/

/-- Why a sequence of bytes is no character. -/
inductive Reason where
  /-- No sequence begins with this byte. -/
  | invalidStart
  /-- The bytes end inside a sequence. -/
  | unexpectedEnd
  /-- A byte does not continue the sequence before it. -/
  | invalidContinuation
  /-- The byte has its highest bit set where only seven bits are used. -/
  | notSevenBit
  deriving DecidableEq

def Reason.text : Reason -> List Char
  | invalidStart => "invalid start byte".toList
  | unexpectedEnd => "unexpected end of data".toList
  | invalidContinuation => "invalid continuation byte".toList
  | notSevenBit => "ordinal not in range(128)".toList

/-- A sequence of bytes that is no character. -/
structure Fault where
  /-- The name of the code that the bytes were read as. -/
  codec : List Char
  /-- The first byte of the sequence. -/
  byte : UInt8
  first : Nat
  last : Nat
  reason : Reason
  deriving DecidableEq

/-- The message of a decoding fault. -/
def Fault.message (fault : Fault) : List Char :=
  '\x27' :: fault.codec ++ "' codec can't decode ".toList ++
    (if fault.first = fault.last then
      "byte 0x".toList ++ Text.hexDigits 2 fault.byte.toNat ++ " in position ".toList ++
        Text.natural fault.first
    else
      "bytes in position ".toList ++ Text.natural fault.first ++ ['-'] ++
        Text.natural fault.last) ++
    ": ".toList ++ fault.reason.text

end Encoding
end LoopTape
