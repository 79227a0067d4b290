import LoopTape.Text.Decimal

namespace LoopTape
namespace Text

/-!
# Reading decimal numbers back

A natural number is written with digits only, and an integer with at most a minus sign in
front of them, so no other character can be mistaken for a part of a number.  The digits
give the number back, however many there are.

The reading here is not that of the command line.  It accepts nothing but what is written,
and it knows no limit.

Where the digits are limited, a list of numbers is written as it would be without a limit or
not at all.  A single number that is too long is enough for the whole list to be refused.
-/

/-- The natural number that a text of decimal digits and nothing else denotes. -/
def readNatural? (text : List Char) : Option Nat :=
  if text ≠ [] ∧ text.all Char.isDigit then some (Nat.ofDigitChars 10 text 0) else none

/-- The integer that decimal digits denote, perhaps with a minus sign in front. -/
def readDecimal? : List Char -> Option Int
  | '-' :: rest => (readNatural? rest).map (fun number : Nat => -(number : Int))
  | text => (readNatural? text).map (fun number : Nat => (number : Int))

variable {character : Char}

theorem isDigit_of_mem_natural {number : Nat} (member : character ∈ natural number) :
    character.isDigit = true :=
  Nat.isDigit_of_mem_toDigits (by decide) (by decide) member

theorem natural_ne_nil (number : Nat) : natural number ≠ [] := Nat.toDigits_ne_nil

theorem decimal_ne_nil (value : Int) : decimal value ≠ [] := by
  cases value with
  | ofNat number => exact natural_ne_nil number
  | negSucc number => exact List.cons_ne_nil '-' (natural (number + 1))

theorem not_mem_natural (notDigit : character.isDigit = false) (number : Nat) :
    character ∉ natural number := by
  intro member
  rw [isDigit_of_mem_natural member] at notDigit
  cases notDigit

theorem not_mem_decimal (notDigit : character.isDigit = false) (notSign : character ≠ '-')
    (value : Int) : character ∉ decimal value := by
  cases value with
  | ofNat number => exact not_mem_natural notDigit number
  | negSucc number =>
      intro member
      rcases List.mem_cons.mp member with sign | digit
      · exact notSign sign
      · exact not_mem_natural notDigit (number + 1) digit

theorem not_mem_alignRight {width : Nat} {text : List Char} (notSpace : character ≠ ' ')
    (absent : character ∉ text) : character ∉ alignRight width text := by
  intro member
  rcases List.mem_append.mp member with padding | shown
  · exact notSpace (List.eq_of_mem_replicate padding)
  · exact absent shown

theorem readNatural?_natural (number : Nat) : readNatural? (natural number) = some number := by
  have digits : (natural number).all Char.isDigit = true :=
    List.all_eq_true.mpr fun _ member => isDigit_of_mem_natural member
  rw [readNatural?, if_pos ⟨natural_ne_nil number, digits⟩]
  exact congrArg some Nat.ofDigitChars_ten_toDigits

/-- Without a sign in front a text can only be a natural number. -/
theorem readDecimal?_of_head {text : List Char} (unsigned : text.head? ≠ some '-') :
    readDecimal? text = (readNatural? text).map (fun number : Nat => (number : Int)) := by
  unfold readDecimal?
  split
  · exact absurd rfl unsigned
  · rfl

theorem readDecimal?_decimal (value : Int) : readDecimal? (decimal value) = some value := by
  cases value with
  | ofNat number =>
      have unsigned : (natural number).head? ≠ some '-' := fun sign =>
        not_mem_natural rfl number (List.mem_of_head? sign)
      rw [decimal, readDecimal?_of_head unsigned, readNatural?_natural]
      rfl
  | negSucc number =>
      rw [decimal, readDecimal?, readNatural?_natural]
      rfl

/-- A reading of several texts succeeds if it does for each of them. -/
theorem mapM_eq_some {α β : Type} {read : α -> Option β} {texts : List α} {values : List β}
    (each : texts.map read = values.map some) : texts.mapM read = some values := by
  induction texts generalizing values with
  | nil =>
      rw [List.map_eq_nil_iff.mp each.symm]
      rfl
  | cons text later inductionHypothesis =>
      cases values with
      | nil => cases each
      | cons value others =>
          rcases List.cons.inj each with ⟨here, behind⟩
          rw [List.mapM_cons, here, inductionHypothesis behind]
          rfl

/-! ## Limited digits -/

/-- The least number that has one digit more than there are zeros. -/
theorem decimal_pow (zeros : Nat) :
    decimal ((Nat.pow 10 zeros : Nat) : Int) = '1' :: List.replicate zeros '0' := by
  change natural (Nat.pow 10 zeros) = _
  induction zeros with
  | zero => rfl
  | succ zeros inductionHypothesis =>
      have base : 1 < 10 := by decide
      have raised : Nat.pow 10 (zeros + 1) = 10 * Nat.pow 10 zeros + 0 := Nat.mul_comm _ _
      have positive : 0 < Nat.pow 10 zeros := Nat.pow_pos (Nat.zero_lt_of_lt base)
      have last : Nat.toDigits 10 0 = ['0'] := Nat.toDigits_zero 10
      rw [natural, raised, ← Nat.toDigits_append_toDigits base positive (Nat.zero_lt_of_lt base),
        last, ← natural, inductionHypothesis, List.replicate_succ', List.cons_append]

theorem digitLimit_eq : digitLimit = 4300 := rfl

/-- The power is not to be computed, so the limit is named before the test is opened. -/
theorem isWritable_iff (value : Int) :
    isWritable value = true ↔ value.natAbs < Nat.pow 10 4300 := by
  rw [← digitLimit_eq]
  exact decide_eq_true_iff

/-- A one with that many zeros behind it has a digit more than there are zeros. -/
theorem not_isWritable_pow {zeros : Nat} (many : digitLimit ≤ zeros) :
    ¬ isWritable ((Nat.pow 10 zeros : Nat) : Int) = true := by
  have base : 1 < 10 := by decide
  rw [isWritable, decide_eq_true_iff, Int.natAbs_natCast, Nat.pow_eq, Nat.pow_eq, Nat.not_lt,
    Nat.pow_le_pow_iff_right base]
  exact many

theorem not_isWritable_of_le {value : Int} (long : Nat.pow 10 4300 ≤ value.natAbs) :
    ¬ isWritable value = true := by
  rw [isWritable_iff]
  exact Nat.not_lt_of_le long

/-- A traversal that refuses each element by the same test is refused as a whole if the test
fails anywhere, and otherwise meets no difference to a plain map. -/
theorem mapM_eq_ite_all {α β ε : Type} {write : α -> Except ε β} {test : α -> Bool}
    {plain : α -> β} {fault : ε}
    (each : forall value, write value = if test value then .ok (plain value) else .error fault)
    (values : List α) :
    values.mapM write = if values.all test then .ok (values.map plain) else .error fault := by
  induction values with
  | nil => rfl
  | cons value later inductionHypothesis =>
      rw [List.mapM_cons, each, inductionHypothesis, List.all_cons]
      cases test value with
      | false => rfl
      | true =>
          rw [Bool.true_and]
          cases later.all test with
          | false => rfl
          | true => rfl

end Text
end LoopTape
