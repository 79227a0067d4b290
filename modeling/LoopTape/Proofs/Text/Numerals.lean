import LoopTape.Proofs.Text.Decimals
import LoopTape.Text.Numeral
import Mathlib.Data.List.TakeWhile

namespace LoopTape
namespace Text

/-!
# Blanks around a numeral

There are two notions of a blank.  A text is stripped of every blank at its two ends, but
the blanks that may stand around an integer do not include the four separators.  Reading an
integer from a stripped text is therefore not the same as reading it from the text itself:
a numeral between separators can be read only once they are gone.

In the other direction nothing is lost.  What is left of a text in which an integer can be
read has neither a blank nor a separator in it, since it has only a sign, digits and
underscores, and no digit of any script is a blank.  The two ways of trimming such a text
stop at the same places.

Writing an integer and reading it back have the same limit of digits.  Neither counts the
sign, and what is written has no leading zeros, so an integer that may be written can be read
and one that may not be written could not be read either.
-/

/-! ## Trimming -/

/-- What trimming takes away stands at the two ends and is accepted by the test. -/
theorem exists_around_trim (accepts : Char -> Bool) (text : List Char) :
    Exists fun front => Exists fun back =>
      text = front ++ (trim accepts text ++ back) ∧
        (forall character, character ∈ front -> accepts character = true) ∧
        forall character, character ∈ back -> accepts character = true := by
  have atFront := @List.takeWhile_append_dropWhile _ accepts text
  have atBack := @List.takeWhile_append_dropWhile _ accepts (text.dropWhile accepts).reverse
  refine ⟨text.takeWhile accepts, ((text.dropWhile accepts).reverse.takeWhile accepts).reverse,
    ?_, fun _ member => List.all_eq_true.mp List.all_takeWhile _ member,
    fun _ member => List.all_eq_true.mp List.all_takeWhile _ (List.mem_reverse.mp member)⟩
  rw [trim, ← List.reverse_append, atBack, List.reverse_reverse, atFront]

theorem dropWhile_accepted_append {accepts : Char -> Bool} {front : List Char}
    (accepted : forall character, character ∈ front -> accepts character = true) {inner : List Char}
    (nonempty : inner ≠ []) (refused : forall character, character ∈ inner -> accepts character = false)
    (back : List Char) :
    (front ++ (inner ++ back)).dropWhile accepts = inner ++ back := by
  rw [List.dropWhile_append_of_pos accepted]
  rcases List.exists_cons_of_ne_nil nonempty with ⟨first, rest, rfl⟩
  have stays := Bool.eq_false_iff.mp (refused first List.mem_cons_self)
  exact List.dropWhile_cons_of_neg stays

/-- Trimming stops at a part of the text that the test refuses altogether. -/
theorem trim_accepted_append {accepts : Char -> Bool} {front inner back : List Char}
    (inFront : forall character, character ∈ front -> accepts character = true)
    (behind : forall character, character ∈ back -> accepts character = true)
    (nonempty : inner ≠ []) (refused : forall character, character ∈ inner -> accepts character = false) :
    trim accepts (front ++ (inner ++ back)) = inner := by
  have behindReversed : forall character, character ∈ back.reverse -> accepts character = true :=
    fun character member => behind character (List.mem_reverse.mp member)
  have refusedReversed : forall character, character ∈ inner.reverse -> accepts character = false :=
    fun character member => refused character (List.mem_reverse.mp member)
  have stops := dropWhile_accepted_append behindReversed
    (List.reverse_ne_nil_iff.mpr nonempty) refusedReversed []
  rw [List.append_nil] at stops
  rw [trim, dropWhile_accepted_append inFront nonempty refused, List.reverse_append, stops,
    List.reverse_reverse]

theorem strip_eq_nil {text : List Char}
    (blank : forall character, character ∈ text -> isBlank character = true) : strip text = [] := by
  rw [strip, trim, List.dropWhile_eq_nil_iff.mpr blank]
  rfl

/-! ## Numerals have no blanks in them -/

/-- No script has a digit among the blanks. -/
theorem isBlank_eq_false_of_digit? {character : Char} {value : Nat}
    (digit : digit? character = some value) : isBlank character = false := by
  have apart : forall first, first ∈ zeros -> forall range, range ∈ blanks ->
      first + 9 < range.1 ∨ range.2 < first := by decide
  rcases Option.map_eq_some_iff.mp digit with ⟨first, found, _⟩
  have inside := List.find?_some found
  simp only [Bool.and_eq_true, decide_eq_true_eq] at inside
  apply Bool.eq_false_iff.mpr
  intro blank
  rcases exists_range_of_within blank with ⟨range, member, above, below⟩
  have beside := apart first (List.mem_of_find?_eq_some found) range member
  omega

theorem isBlank_eq_false_of_moreDigits? {text : List Char} {values : List Nat}
    (digits : moreDigits? text = some values) :
    forall character, character ∈ text -> isBlank character = false := by
  fun_induction moreDigits? text generalizing values with
  | case1 => exact List.forall_mem_nil _
  | case2 first rest value later reads digit inductionHypothesis =>
      have underscore : isBlank '_' = false := by decide
      have behind : forall character, character ∈ first :: rest -> isBlank character = false :=
        List.forall_mem_cons.mpr ⟨isBlank_eq_false_of_digit? digit, inductionHypothesis reads⟩
      exact List.forall_mem_cons.mpr ⟨underscore, behind⟩
  | case3 => cases digits
  | case4 first rest notUnderscore value later reads digit inductionHypothesis =>
      exact List.forall_mem_cons.mpr
        ⟨isBlank_eq_false_of_digit? digit, inductionHypothesis reads⟩
  | case5 => cases digits

theorem isBlank_eq_false_of_digits? {text : List Char} {values : List Nat}
    (digits : digits? text = some values) :
    text ≠ [] ∧ forall character, character ∈ text -> isBlank character = false := by
  cases text with
  | nil => cases digits
  | cons first rest =>
      simp only [digits?] at digits
      split at digits
      · rename_i digit reads
        exact ⟨List.cons_ne_nil first rest, List.forall_mem_cons.mpr
          ⟨isBlank_eq_false_of_digit? digit, isBlank_eq_false_of_moreDigits? reads⟩⟩
      · cases digits

theorem isBlank_eq_false_of_natural? {text : List Char} {number : Nat}
    (reads : natural? text = some number) :
    text ≠ [] ∧ forall character, character ∈ text -> isBlank character = false := by
  unfold natural? at reads
  split at reads
  · exact isBlank_eq_false_of_digits? (by assumption)
  · cases reads

/-! ## What reading skips -/

/-- The blanks that may stand around an integer. -/
def mayPad (character : Char) : Bool := isBlank character && !isSeparator character

/-- The integer that a text denotes by itself, without blanks around it. -/
def signed? : List Char -> Option Int
  | '-' :: rest => (natural? rest).map (fun number : Nat => -(number : Int))
  | '+' :: rest => (natural? rest).map Int.ofNat
  | text => (natural? text).map Int.ofNat

theorem integer?_eq_signed? (text : List Char) :
    integer? text = signed? (trim mayPad text) := by
  change (match trim mayPad text with | '-' :: rest => _ | '+' :: rest => _ | text => _) = _
  generalize trim mayPad text = numeral
  unfold signed?
  split
  · cases natural? _ <;> rfl
  · cases natural? _ <;> rfl
  · cases natural? _ <;> rfl

theorem isBlank_eq_false_of_signed? {text : List Char} {value : Int}
    (reads : signed? text = some value) :
    text ≠ [] ∧ forall character, character ∈ text -> isBlank character = false := by
  have behind : forall sign rest number, isBlank sign = false -> natural? rest = some number ->
      sign :: rest ≠ [] ∧
        forall character, character ∈ sign :: rest -> isBlank character = false := by
    intro sign rest number dark natural
    exact ⟨List.cons_ne_nil sign rest,
      List.forall_mem_cons.mpr ⟨dark, (isBlank_eq_false_of_natural? natural).2⟩⟩
  unfold signed? at reads
  split at reads
  · rcases Option.map_eq_some_iff.mp reads with ⟨number, natural, _⟩
    exact behind '-' _ number (by decide) natural
  · rcases Option.map_eq_some_iff.mp reads with ⟨number, natural, _⟩
    exact behind '+' _ number (by decide) natural
  · rcases Option.map_eq_some_iff.mp reads with ⟨number, natural, _⟩
    exact isBlank_eq_false_of_natural? natural

/-- Where an integer can be read, stripping takes away what reading would have skipped. -/
theorem strip_eq_trim_mayPad {text : List Char} {value : Int}
    (reads : integer? text = some value) : strip text = trim mayPad text := by
  rcases isBlank_eq_false_of_signed? (integer?_eq_signed? text ▸ reads) with ⟨nonempty, dark⟩
  rcases exists_around_trim mayPad text with ⟨front, back, parts, inFront, behind⟩
  have stripped : trim isBlank (front ++ (trim mayPad text ++ back)) = trim mayPad text :=
    trim_accepted_append
      (fun character member => (Bool.and_eq_true_iff.mp (inFront character member)).1)
      (fun character member => (Bool.and_eq_true_iff.mp (behind character member)).1)
      nonempty dark
  rwa [← parts] at stripped

/-- An integer that can be read from a text can be read from the stripped text too, of which
something is left. -/
theorem integer?_strip {text : List Char} {value : Int} (reads : integer? text = some value) :
    strip text ≠ [] ∧ integer? (strip text) = some value := by
  have signed : signed? (trim mayPad text) = some value := integer?_eq_signed? text ▸ reads
  rcases isBlank_eq_false_of_signed? signed with ⟨nonempty, dark⟩
  have unpadded : forall character, character ∈ trim mayPad text -> mayPad character = false := by
    intro character member
    rw [mayPad, dark character member, Bool.false_and]
  have settled : trim mayPad ([] ++ (trim mayPad text ++ [])) = trim mayPad text :=
    trim_accepted_append (List.forall_mem_nil _) (List.forall_mem_nil _) nonempty unpadded
  rw [List.nil_append, List.append_nil] at settled
  rw [strip_eq_trim_mayPad reads]
  exact ⟨nonempty, by rw [integer?_eq_signed?, settled, signed]⟩

/-- What reads as a positive number does not begin with a dash.  A dash is no blank, so it
would be the sign. -/
theorem head?_ne_dash_of_integer? {text : List Char} {value : Int}
    (reads : integer? text = some value) (positive : 0 < value) : text.head? ≠ some '-' := by
  have signed : signed? (trim mayPad text) = some value := integer?_eq_signed? text ▸ reads
  have nonempty := (isBlank_eq_false_of_signed? signed).1
  rcases exists_around_trim mayPad text with ⟨front, back, parts, inFront, _⟩
  intro dash
  rw [parts] at dash
  cases front with
  | cons first later =>
      cases Option.some.inj dash
      exact absurd (inFront '-' List.mem_cons_self) (by decide)
  | nil =>
      rcases List.exists_cons_of_ne_nil nonempty with ⟨sign, digits, whole⟩
      rw [whole] at dash signed
      cases Option.some.inj dash
      rcases Option.map_eq_some_iff.mp signed with ⟨number, _, rfl⟩
      exact Int.not_lt.mpr (Int.neg_nonpos_of_nonneg (Int.natCast_nonneg number)) positive

/-! ## Decimal texts -/

section

variable {character : Char} {text : List Char}

/-- The decimal digits are those of the script that comes first. -/
theorem digit?_of_isDigit (digit : character.isDigit = true) :
    digit? character = some (character.toNat - '0'.toNat) := by
  have bounds := Char.isDigit_iff_toNat.mp digit
  have here : (decide (0x30 ≤ character.toNat) && decide (character.toNat < 0x30 + 10)) = true :=
    Bool.and_eq_true_iff.mpr
      ⟨decide_eq_true bounds.1, decide_eq_true (Nat.lt_succ_of_le bounds.2)⟩
  have found : zeros.find? (fun first =>
      decide (first ≤ character.toNat) && decide (character.toNat < first + 10)) = some 0x30 :=
    List.find?_cons_of_pos here
  rw [digit?, found]
  rfl

theorem moreDigits?_of_isDigit
    (digits : forall character, character ∈ text -> character.isDigit = true) :
    moreDigits? text = some (text.map (fun character => character.toNat - '0'.toNat)) := by
  induction text with
  | nil => rfl
  | cons first rest inductionHypothesis =>
      rcases List.forall_mem_cons.mp digits with ⟨digit, behind⟩
      have notUnderscore : first ≠ '_' := by
        rintro rfl
        cases digit
      rw [moreDigits?, digit?_of_isDigit digit, inductionHypothesis behind]
      · rfl
      · intro _ _ impossible
        exact absurd impossible notUnderscore

theorem digits?_of_isDigit (nonempty : text ≠ [])
    (digits : forall character, character ∈ text -> character.isDigit = true) :
    digits? text = some (text.map (fun character => character.toNat - '0'.toNat)) := by
  rcases List.exists_cons_of_ne_nil nonempty with ⟨first, rest, rfl⟩
  rcases List.forall_mem_cons.mp digits with ⟨digit, behind⟩
  rw [digits?, digit?_of_isDigit digit, moreDigits?_of_isDigit behind]
  rfl

theorem ofDigits_map (text : List Char) :
    ofDigits (text.map (fun character => character.toNat - '0'.toNat)) =
      Nat.ofDigitChars 10 text 0 := by
  rw [ofDigits, List.foldl_map, Nat.ofDigitChars_eq_foldl]

/-- The digits that are counted for the limit are all that the number has. -/
theorem length_natural_le_iff (number : Nat) :
    (natural number).length ≤ digitLimit ↔ isWritable (number : Int) = true := by
  have base : 1 < 10 := by decide
  have positive : 0 < digitLimit := by decide
  rw [isWritable, decide_eq_true_iff, Int.natAbs_natCast, Nat.pow_eq, natural,
    Nat.length_toDigits_le_iff base positive]

theorem natural?_natural (number : Nat) :
    natural? (natural number) = if isWritable (number : Int) then some number else none := by
  have digits := digits?_of_isDigit (natural_ne_nil number)
    (fun _ member => isDigit_of_mem_natural member)
  rw [natural?, digits]
  dsimp only
  rw [List.length_map, ofDigits_map]
  apply ite_congr (propext (length_natural_le_iff number))
  · exact fun _ => congrArg some Nat.ofDigitChars_ten_toDigits
  · exact fun _ => rfl

/-- A text without a sign is read as a natural number. -/
theorem signed?_of_head (notMinus : text.head? ≠ some '-') (notPlus : text.head? ≠ some '+') :
    signed? text = (natural? text).map Int.ofNat := by
  unfold signed?
  split
  · exact absurd rfl notMinus
  · exact absurd rfl notPlus
  · rfl

theorem signed?_decimal (value : Int) :
    signed? (decimal value) = if isWritable value then some value else none := by
  cases value with
  | ofNat number =>
      have unsigned : signed? (natural number) = (natural? (natural number)).map Int.ofNat :=
        signed?_of_head (fun sign => not_mem_natural rfl number (List.mem_of_head? sign))
          (fun sign => not_mem_natural rfl number (List.mem_of_head? sign))
      rw [decimal, unsigned, natural?_natural]
      exact apply_ite (Option.map Int.ofNat) _ _ _
  | negSucc number =>
      rw [decimal, signed?, natural?_natural]
      exact apply_ite (Option.map (fun number : Nat => -(number : Int))) _ _ _

theorem isBlank_eq_false_of_mem_decimal {value : Int} (member : character ∈ decimal value) :
    isBlank character = false := by
  by_cases digit : character.isDigit = true
  · exact isBlank_eq_false_of_digit? (digit?_of_isDigit digit)
  · by_cases sign : character = '-'
    · rw [sign]
      rfl
    · exact absurd member (not_mem_decimal (Bool.eq_false_iff.mpr digit) sign value)

/-- Where an integer may be written it is read back, and elsewhere nothing is. -/
theorem integer?_decimal (value : Int) :
    integer? (decimal value) = if isWritable value then some value else none := by
  have unpadded : forall character, character ∈ decimal value -> mayPad character = false := by
    intro character member
    rw [mayPad, isBlank_eq_false_of_mem_decimal member, Bool.false_and]
  have whole : trim mayPad ([] ++ (decimal value ++ [])) = decimal value :=
    trim_accepted_append (List.forall_mem_nil _) (List.forall_mem_nil _) (decimal_ne_nil value)
      unpadded
  rw [List.nil_append, List.append_nil] at whole
  rw [integer?_eq_signed?, whole, signed?_decimal]

/-- A one with too many zeros behind it cannot be read. -/
theorem integer?_one_zeros {zeros : Nat} (many : digitLimit ≤ zeros) :
    integer? ('1' :: List.replicate zeros '0') = none := by
  rw [← decimal_pow, integer?_decimal, if_neg (not_isWritable_pow many)]

end

/-- Separators around a numeral are blanks that only stripping takes away. -/
example : integer? ['\x1c', '7'] = none ∧ integer? (strip ['\x1c', '7']) = some 7 := by decide

end Text
end LoopTape
