namespace LoopTape
namespace Text

/-!
# Decimal numbers

Numbers are written in decimal, without leading zeros, and a number below zero
has a minus sign in front.  In a table a number stands at the right end of a
field; a number too wide for its field makes the field wider.

Where numbers of any size can be asked for, the number of digits is limited, so
that reading and writing stay cheap.
-/

/-- The decimal digits of a natural number. -/
def natural (number : Nat) : List Char := Nat.toDigits 10 number

/-- The decimal text of an integer. -/
def decimal : Int -> List Char
  | .ofNat number => natural number
  | .negSucc number => '-' :: natural (number + 1)

/-- The most digits that an integer may have where digits are limited. -/
def digitLimit : Nat := 4300

/-- Whether an integer has no more digits than the limit allows. -/
def isWritable (value : Int) : Bool := decide (value.natAbs < Nat.pow 10 digitLimit)

/-- The failure to write an integer that has too many digits. -/
inductive NumeralFault where
  | tooManyDigits
  deriving DecidableEq

def NumeralFault.message : NumeralFault -> List Char
  | tooManyDigits =>
    ("Exceeds the limit (4300 digits) for integer string conversion; " ++
      "use sys.set_int_max_str_digits() to increase the limit").toList

/-- The decimal text of an integer where digits are limited. -/
def checkedDecimal (value : Int) : Except NumeralFault (List Char) :=
  if isWritable value then .ok (decimal value) else .error .tooManyDigits

/-- A text at the right end of a field of at least the given width. -/
def alignRight (width : Nat) (text : List Char) : List Char :=
  List.replicate (width - text.length) ' ' ++ text

end Text
end LoopTape
