import LoopTape.Text.Quoted

namespace LoopTape
namespace Text

/-!
# Where a quoted text ends

A quoted text says by itself which text it is and where it ends, whatever is
written behind it.  Between the marks every character is written in a way that no
other character is.  A backslash is followed by what tells the escapes apart, and
each escape by code point has a number of digits of its own.  So one character
after the other can be read back, and the mark cannot be met before the end.

Nothing is asked of the table of printable characters.  A character that it wrongly
lists is written in the other way and still read back as itself.
-/

/-! ## Hexadecimal digits -/

/-- The value of a hexadecimal digit. -/
def hexValue (digit : Char) : Nat :=
  if digit.toNat < 0x3a then digit.toNat - 0x30 else digit.toNat - 0x57

/-- The number that hexadecimal digits denote, most significant digit first. -/
def ofHexDigits (digits : List Char) : Nat :=
  digits.foldl (fun number digit => 16 * number + hexValue digit) 0

theorem hexValue_hexDigit {value : Nat} (small : value < 16) :
    hexValue (hexDigit value) = value := by
  have each : forall value, value < 16 -> hexValue (hexDigit value) = value := by decide
  exact each value small

theorem length_hexDigits (count number : Nat) : (hexDigits count number).length = count := by
  induction count generalizing number with
  | zero => rfl
  | succ count inductionHypothesis =>
      rw [hexDigits, List.length_append, inductionHypothesis, List.length_singleton]

theorem ofHexDigits_hexDigits {count number : Nat} (fits : number < Nat.pow 16 count) :
    ofHexDigits (hexDigits count number) = number := by
  induction count generalizing number with
  | zero => exact (Nat.lt_one_iff.mp fits).symm
  | succ count inductionHypothesis =>
      have raised : Nat.pow 16 (count + 1) = 16 * Nat.pow 16 count := Nat.mul_comm _ _
      have shorter : number / 16 < Nat.pow 16 count := Nat.div_lt_of_lt_mul (raised ▸ fits)
      have front := inductionHypothesis shorter
      rw [ofHexDigits] at front ⊢
      rw [hexDigits, List.foldl_append, front, List.foldl_cons, List.foldl_nil,
        hexValue_hexDigit (Nat.mod_lt number (by decide))]
      exact Nat.div_add_mod number 16

/-! ## One character -/

/-- The character whose code point is given by so many digits, and what follows. -/
def readCode (count : Nat) (text : List Char) : Char × List Char :=
  (Char.ofNat (ofHexDigits (text.take count)), text.drop count)

/-- What a backslash makes of the text behind it. -/
def readEscape (letter : Char) (rest : List Char) : Char × List Char :=
  if letter = 't' then ('\t', rest)
  else if letter = 'n' then ('\n', rest)
  else if letter = 'r' then ('\r', rest)
  else if letter = 'x' then readCode 2 rest
  else if letter = 'u' then readCode 4 rest
  else if letter = 'U' then readCode 8 rest
  else (letter, rest)

/-- The first character of a text between marks, and what follows. -/
def readQuoted : List Char -> Option (Char × List Char)
  | [] => none
  | character :: later =>
    if character = '\\' then
      match later with
      | [] => none
      | letter :: rest => some (readEscape letter rest)
    else some (character, later)

theorem readCode_hexDigits {count : Nat} {character : Char}
    (fits : character.toNat < Nat.pow 16 count) (rest : List Char) :
    readCode count (hexDigits count character.toNat ++ rest) = (character, rest) := by
  have length := length_hexDigits count character.toNat
  rw [readCode, List.take_left' length, List.drop_left' length, ofHexDigits_hexDigits fits,
    Char.ofNat_toNat]

/-- The marks that texts are quoted with. -/
def IsMark (mark : Char) : Prop := mark = apostrophe ∨ mark = doubleQuote

theorem isMark_quoteMark (text : List Char) : IsMark (quoteMark text) := by
  unfold quoteMark
  split
  · exact Or.inr rfl
  · exact Or.inl rfl

theorem IsMark.readEscape {mark : Char} (isMark : IsMark mark) (rest : List Char) :
    readEscape mark rest = (mark, rest) := by
  rcases isMark with same | same <;> rw [same] <;> rfl

theorem toNat_lt (character : Char) : character.toNat < Nat.pow 16 8 := by
  have valid : character.toNat < 0x110000 := by
    rcases character.valid with low | ⟨_, high⟩
    · exact Nat.lt_trans low (by decide)
    · exact high
  exact Nat.lt_trans valid (by decide)

/-- A character stands for itself, or a backslash begins an escape that is read as it. -/
theorem quotedChar_cases {mark : Char} (isMark : IsMark mark) (character : Char) :
    (quotedChar mark character = [character] ∧ character ≠ mark ∧ character ≠ '\\') ∨
      Exists fun letter => Exists fun code =>
        quotedChar mark character = '\\' :: letter :: code ∧
          forall rest, readEscape letter (code ++ rest) = (character, rest) := by
  unfold quotedChar
  by_cases escaped : (character = mark || character = '\\') = true
  · rw [if_pos escaped]
    refine Or.inr ⟨character, [], rfl, fun rest => ?_⟩
    rcases Bool.or_eq_true_iff.mp escaped with same | same
    · rw [of_decide_eq_true same]
      exact isMark.readEscape rest
    · rw [of_decide_eq_true same]
      rfl
  rw [if_neg escaped]
  by_cases tab : character = '\t'
  · rw [if_pos tab, tab]
    exact Or.inr ⟨'t', [], rfl, fun _ => rfl⟩
  rw [if_neg tab]
  by_cases lineFeed : character = '\n'
  · rw [if_pos lineFeed, lineFeed]
    exact Or.inr ⟨'n', [], rfl, fun _ => rfl⟩
  rw [if_neg lineFeed]
  by_cases carriageReturn : character = '\r'
  · rw [if_pos carriageReturn, carriageReturn]
    exact Or.inr ⟨'r', [], rfl, fun _ => rfl⟩
  rw [if_neg carriageReturn]
  by_cases printable : isPrintable character = true
  · rw [if_pos printable]
    rw [Bool.or_eq_true_iff, not_or, decide_eq_true_iff, decide_eq_true_iff] at escaped
    exact Or.inl ⟨rfl, escaped⟩
  rw [if_neg printable]
  by_cases oneByte : character.toNat < 0x100
  · rw [if_pos oneByte]
    exact Or.inr ⟨'x', _, rfl, readCode_hexDigits oneByte⟩
  rw [if_neg oneByte]
  by_cases twoBytes : character.toNat < 0x10000
  · rw [if_pos twoBytes]
    exact Or.inr ⟨'u', _, rfl, readCode_hexDigits twoBytes⟩
  rw [if_neg twoBytes]
  exact Or.inr ⟨'U', _, rfl, readCode_hexDigits (toNat_lt character)⟩

/-- What was written for a character is read as it, whatever follows. -/
theorem readQuoted_quotedChar {mark : Char} (isMark : IsMark mark) (character : Char)
    (rest : List Char) :
    readQuoted (quotedChar mark character ++ rest) = some (character, rest) := by
  rcases quotedChar_cases isMark character with ⟨plain, _, notBackslash⟩ |
    ⟨letter, code, escaped, reads⟩
  · rw [plain]
    exact if_neg notBackslash
  · rw [escaped]
    exact congrArg some (reads rest)

/-- Nothing is written for a character that begins with the mark. -/
theorem quotedChar_eq_cons {mark : Char} (isMark : IsMark mark) (character : Char) :
    Exists fun head => Exists fun tail =>
      quotedChar mark character = head :: tail ∧ head ≠ mark := by
  rcases quotedChar_cases isMark character with ⟨plain, apart, _⟩ | ⟨letter, code, escaped, _⟩
  · exact ⟨character, [], plain, apart⟩
  · refine ⟨'\\', _, escaped, ?_⟩
    rcases isMark with same | same <;> rw [same] <;> decide

/-! ## Whole texts -/

/-- Two texts between the same marks are the same when they are written alike, and so
is what follows them. -/
theorem flatMap_quotedChar_cancel {mark : Char} (isMark : IsMark mark)
    {first second front back : List Char}
    (same : first.flatMap (quotedChar mark) ++ mark :: front =
      second.flatMap (quotedChar mark) ++ mark :: back) :
    first = second ∧ front = back := by
  -- The texts are read back together, so one of them cannot end before the other.
  induction first generalizing second with
  | nil =>
      cases second with
      | nil => exact ⟨rfl, (List.cons.inj same).2⟩
      | cons character later =>
          rcases quotedChar_eq_cons isMark character with ⟨head, tail, written, apart⟩
          rw [List.flatMap_cons, written] at same
          exact absurd (List.cons.inj same).1.symm apart
  | cons character later inductionHypothesis =>
      cases second with
      | nil =>
          rcases quotedChar_eq_cons isMark character with ⟨head, tail, written, apart⟩
          rw [List.flatMap_cons, written] at same
          exact absurd (List.cons.inj same).1 apart
      | cons other others =>
          rw [List.flatMap_cons, List.flatMap_cons, List.append_assoc, List.append_assoc] at same
          have read := congrArg readQuoted same
          rw [readQuoted_quotedChar isMark, readQuoted_quotedChar isMark] at read
          rcases Prod.mk.inj (Option.some.inj read) with ⟨alike, onward⟩
          rcases inductionHypothesis onward with ⟨laterAlike, followed⟩
          exact ⟨by rw [alike, laterAlike], followed⟩

/-- A quoted text says which text it is and where it ends. -/
theorem quoted_append_cancel {first second front back : List Char}
    (same : quoted first ++ front = quoted second ++ back) : first = second ∧ front = back := by
  simp only [quoted, List.cons_append, List.append_assoc] at same
  rcases List.cons.inj same with ⟨marks, between⟩
  rw [marks] at between
  exact flatMap_quotedChar_cancel (isMark_quoteMark second) between

theorem quoted_eq_cons (text : List Char) :
    Exists fun mark => Exists fun tail => quoted text = mark :: tail ∧ IsMark mark :=
  ⟨quoteMark text, _, rfl, isMark_quoteMark text⟩

end Text
end LoopTape
