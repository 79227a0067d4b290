import LoopTape.CommandLine.Response
import LoopTape.Proofs.Text.Decimals
import LoopTape.Proofs.Text.Lines
import Mathlib.Data.List.Basic

namespace LoopTape
namespace CommandLine

/-!
# Rows of a dump

A dump is cut at its line ends into rows and each row at its spaces into numbers, and the
numbers come back in order.  Neither cut can go wrong: a number is written without spaces
and line ends, and no row is empty.  A row is closed only when the next number comes, so
when the numbers end at a full row no empty one follows it.  The one dump that has no rows
is that of no numbers.  It is the empty text, which a cut would turn into one empty row.

The limit of digits decides whether there is a dump, and not what it looks like.  The rows
are therefore studied as they would be without the limit, and whatever dump there is has
these rows.  The cells of a tape are bytes and never come near the limit.
-/

/-- The numbers of a dump, between the spaces and the line ends. -/
def readDump? (text : List Char) : Option (List Int) :=
  if text = [] then some []
  else ((Text.lines text).flatMap (fun row => row.splitOn ' ')).mapM Text.readDecimal?

/-! ## Rows -/

/-- Rows that are all full, except that the last may be short but not empty. -/
def Filled (rows : List (List Int)) : Prop :=
  Exists fun front => Exists fun last => rows = front ++ [last] ∧
    (forall row, row ∈ front -> row.length = rowLength) ∧
    1 ≤ last.length ∧ last.length ≤ rowLength

/-- A row that has been begun, or a number still to come, makes a last row. -/
theorem filled_rowsFrom {row : List Int} {room : Nat} (fits : row.length + room = rowLength)
    {numbers : List Int} (nonempty : row ≠ [] ∨ numbers ≠ []) :
    Filled (rowsFrom row room numbers) := by
  induction numbers generalizing row room with
  | nil =>
      have begun : row ≠ [] := nonempty.resolve_right (fun more => more rfl)
      rw [rowsFrom, if_neg (fun empty => begun (List.isEmpty_iff.mp empty))]
      refine ⟨[], row.reverse, rfl, List.forall_mem_nil _, ?_, ?_⟩
      · rw [List.length_reverse]
        exact List.length_pos_iff.mpr begun
      · rw [List.length_reverse, ← fits]
        exact Nat.le_add_right _ _
  | cons number rest inductionHypothesis =>
      cases room with
      | zero =>
          -- The row is full, and only the number that comes now closes it.
          have begun : [number].length + (rowLength - 1) = rowLength := rfl
          rcases inductionHypothesis begun (Or.inl (List.cons_ne_nil number [])) with
            ⟨front, last, rows, full, short⟩
          refine ⟨row.reverse :: front, last, congrArg (List.cons row.reverse) rows, ?_, short⟩
          exact List.forall_mem_cons.mpr ⟨(List.length_reverse).trans fits, full⟩
      | succ room =>
          apply inductionHypothesis
          · rw [List.length_cons, ← fits]
            exact Nat.succ_add_eq_add_succ _ _
          · exact Or.inl (List.cons_ne_nil number row)

theorem flatten_rowsFrom (row : List Int) (room : Nat) (numbers : List Int) :
    (rowsFrom row room numbers).flatten = row.reverse ++ numbers := by
  induction numbers generalizing row room with
  | nil =>
      cases row with
      | nil => rfl
      | cons number row => exact List.flatten_cons
  | cons number rest inductionHypothesis =>
      cases room with
      | zero =>
          rw [rowsFrom, List.flatten_cons, inductionHypothesis]
          rfl
      | succ room =>
          rw [rowsFrom, inductionHypothesis, List.reverse_cons, List.append_assoc]
          rfl

theorem flatten_dumpRows (numbers : List Int) : (dumpRows numbers).flatten = numbers :=
  flatten_rowsFrom [] rowLength numbers

theorem filled_dumpRows {numbers : List Int} (nonempty : numbers ≠ []) :
    Filled (dumpRows numbers) := filled_rowsFrom rfl (Or.inr nonempty)

theorem Filled.row_ne_nil {rows : List (List Int)} (filled : Filled rows) {row : List Int}
    (member : row ∈ rows) : row ≠ [] := by
  rcases filled with ⟨front, last, rfl, full, positive, _⟩
  apply List.ne_nil_of_length_pos
  rcases List.mem_append.mp member with inFront | atLast
  · rw [full row inFront]
    decide
  · rw [List.mem_singleton.mp atLast]
    exact positive

/-! ## Printed rows -/

/-- A row as it would be printed without a limit of digits. -/
def plainRow (row : List Int) : List Char := [' '].intercalate (row.map Text.decimal)

/-- A dump as it would be printed without a limit of digits. -/
def plainDump (numbers : List Int) : List Char := Text.unlines ((dumpRows numbers).map plainRow)

theorem splitOn_plainRow {row : List Int} (nonempty : row ≠ []) :
    (plainRow row).splitOn ' ' = row.map Text.decimal := by
  apply List.splitOn_intercalate
  · intro word member
    rcases List.mem_map.mp member with ⟨number, _, rfl⟩
    exact Text.not_mem_decimal rfl (by decide) number
  · exact fun empty => nonempty (List.map_eq_nil_iff.mp empty)

theorem lineEnd_not_mem_plainRow (row : List Int) : '\n' ∉ plainRow row := by
  apply Text.not_mem_intercalate (by decide)
  intro word member
  rcases List.mem_map.mp member with ⟨number, _, rfl⟩
  exact Text.not_mem_decimal rfl (by decide) number

theorem lines_plainDump {numbers : List Int} (nonempty : numbers ≠ []) :
    Text.lines (plainDump numbers) = (dumpRows numbers).map plainRow := by
  apply Text.lines_unlines
  · intro empty
    apply nonempty
    rw [← flatten_dumpRows numbers, List.map_eq_nil_iff.mp empty]
    rfl
  · intro printed member
    rcases List.mem_map.mp member with ⟨row, _, rfl⟩
    exact lineEnd_not_mem_plainRow row

/-- If the text were empty, its one line would be a row with an empty number. -/
theorem plainDump_ne_nil {numbers : List Int} (nonempty : numbers ≠ []) :
    plainDump numbers ≠ [] := by
  intro empty
  have blank : [] ∈ (dumpRows numbers).map plainRow := by
    rw [← lines_plainDump nonempty, empty]
    exact List.mem_singleton_self []
  rcases List.mem_map.mp blank with ⟨row, member, same⟩
  have words := splitOn_plainRow ((filled_dumpRows nonempty).row_ne_nil member)
  rw [same] at words
  have blankWord : [] ∈ row.map Text.decimal := by
    rw [← words]
    exact List.mem_singleton_self []
  rcases List.mem_map.mp blankWord with ⟨number, _, impossible⟩
  exact Text.decimal_ne_nil number impossible

/-- The words between the spaces of all rows are the numbers, written in decimal. -/
theorem words_plainDump {numbers : List Int} (nonempty : numbers ≠ []) :
    (Text.lines (plainDump numbers)).flatMap (fun row => row.splitOn ' ') =
      numbers.map Text.decimal := by
  rw [lines_plainDump nonempty, List.flatMap_map]
  calc
    (dumpRows numbers).flatMap (fun row => (plainRow row).splitOn ' ') =
        (dumpRows numbers).flatMap (fun row => row.map Text.decimal) := by
      apply List.flatMap_congr
      intro row member
      exact splitOn_plainRow ((filled_dumpRows nonempty).row_ne_nil member)
    _ = (dumpRows numbers).flatten.map Text.decimal := List.map_flatten.symm
    _ = numbers.map Text.decimal := congrArg _ (flatten_dumpRows numbers)

theorem readDump?_plainDump (numbers : List Int) :
    readDump? (plainDump numbers) = some numbers := by
  by_cases nonempty : numbers = []
  · rw [nonempty]
    rfl
  · rw [readDump?, if_neg (plainDump_ne_nil nonempty), words_plainDump nonempty]
    apply Text.mapM_eq_some
    rw [List.map_map]
    exact List.map_congr_left fun number _ => Text.readDecimal?_decimal number

theorem lengths_plainDump {numbers : List Int} (nonempty : numbers ≠ []) :
    (Text.lines (plainDump numbers)).map (fun row => (row.splitOn ' ').length) =
      (dumpRows numbers).map List.length := by
  rw [lines_plainDump nonempty, List.map_map]
  apply List.map_congr_left
  intro row member
  rw [Function.comp_apply, splitOn_plainRow ((filled_dumpRows nonempty).row_ne_nil member),
    List.length_map]

theorem Filled.exists_lengths {rows : List (List Int)} (filled : Filled rows) :
    Exists fun full => Exists fun last =>
      rows.map List.length = List.replicate full rowLength ++ [last] ∧
        1 ≤ last ∧ last ≤ rowLength := by
  rcases filled with ⟨front, last, rfl, full, short⟩
  refine ⟨front.length, last.length, ?_, short⟩
  rw [List.map_append, List.map_eq_replicate_iff.mpr full]
  rfl

/-! ## The limit -/

theorem rowText_eq (row : List Int) :
    rowText row =
      if row.all Text.isWritable then .ok (plainRow row) else .error .tooManyDigits := by
  have each : forall number, Text.checkedDecimal number =
      if Text.isWritable number then .ok (Text.decimal number) else .error .tooManyDigits :=
    fun _ => rfl
  rw [rowText, Text.mapM_eq_ite_all each]
  exact apply_ite (Except.map (fun words => [' '].intercalate words)) _ _ _

/-- A number that is too long is found in one row or another, and that row fails. -/
theorem dumpText_eq (numbers : List Int) :
    dumpText numbers =
      if numbers.all Text.isWritable then .ok (plainDump numbers) else .error .tooManyDigits := by
  have rows : (dumpRows numbers).all (fun row => row.all Text.isWritable) =
      numbers.all Text.isWritable := by
    rw [← List.all_flatten, flatten_dumpRows]
  rw [dumpText, Text.mapM_eq_ite_all rowText_eq, rows]
  exact apply_ite (Except.map Text.unlines) _ _ _

/-- A byte is less than the number of digits that are allowed, and much less than a number
with so many digits. -/
theorem isWritable_toNat (byte : UInt8) : Text.isWritable (byte.toNat : Int) = true := by
  have base : 1 < 10 := by decide
  have room : 256 < Text.digitLimit := by decide
  have small : byte.toNat < Text.digitLimit := Nat.lt_trans byte.toNat_lt room
  rw [Text.isWritable, decide_eq_true_iff, Int.natAbs_natCast, Nat.pow_eq]
  exact Nat.lt_trans small (Nat.lt_pow_self base)

theorem dumpLines_eq (count : Int) (tape : Tape) :
    dumpLines count tape =
      .ok (if 0 < count then plainDump (firstCells count tape) ++ ['\n'] else []) := by
  have writable : (firstCells count tape).all Text.isWritable = true := by
    apply List.all_eq_true.mpr
    intro number member
    rcases List.mem_map.mp member with ⟨byte, _, rfl⟩
    exact isWritable_toNat byte
  rw [dumpLines, dumpText_eq, if_pos writable]
  exact (apply_ite Except.ok _ _ _).symm

end CommandLine
end LoopTape
