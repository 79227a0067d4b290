import LoopTape.Proofs.Machine.Jumps
import LoopTape.Proofs.Report.Excerpts
import LoopTape.Proofs.Tree.Acceptance
import LoopTape.Report.Failure

namespace LoopTape
namespace Report

/-!
# Reports lead to their brackets

A report about a bracket without a partner is made from its position in three ways,
and each of them leads back to the same character.  The position is that of the bracket
in the text.  The line and the column are where the lines of the text have it.  The
excerpt shows its line, whole and marked, among the lines around it.

Both ways of failing report such a position.  Reading stops at an opening bracket, and
a step fails at the bracket that the counter is on, when the cell asks for a jump.
-/

/-- All that is told about a bracket without a partner leads to this bracket. -/
structure PointsAt (source : List Char) (position : Nat) (bracket : Char)
    (loop : UnterminatedLoop) : Prop where
  blames : loop.position = position
  found : position < source.length ∧ source[position]? = some bracket
  /-- The line and the column, here counted from zero, are those of the bracket, and the
  excerpt is the one around this line. -/
  place : Exists fun row : Nat => Exists fun column : Nat => Exists fun content =>
    loop.line = row + 1 ∧ loop.column = column + 1 ∧
      (Text.lines source)[row]? = some content ∧ content[column]? = some bracket ∧
      Excerpted (Text.lines source) row (Text.lines loop.context)
  /-- The first line of the report gives the same line and column behind the message. -/
  head : loop.message = "unterminated loop".toList ∧
    loop.head = loop.message ++ " (line ".toList ++ Text.decimal loop.line ++
      ", column ".toList ++ Text.decimal loop.column ++ ")".toList
  rows : 1 ≤ (Text.lines loop.context).length ∧ (Text.lines loop.context).length ≤ 5
  report : Text.lines loop.report = loop.head :: (Text.lines loop.context ++ [bracketHint])

/-! ## The lines of a report -/

variable {source : List Char} {position : Nat} {bracket : Char}

theorem lineEnd_not_mem_head {loop : UnterminatedLoop}
    (message : loop.message = unterminatedMessage) : '\n' ∉ loop.head := by
  intro member
  simp only [UnterminatedLoop.head, message, List.mem_append] at member
  rcases member with ((((words | opening) | line) | between) | column) | closing
  · exact absurd words (by decide)
  · exact absurd opening (by decide)
  · exact Text.not_mem_decimal rfl (by decide) loop.line line
  · exact absurd between (by decide)
  · exact Text.not_mem_decimal rfl (by decide) loop.column column
  · exact absurd closing (by decide)

theorem lines_report {loop : UnterminatedLoop} (message : loop.message = unterminatedMessage)
    (nonempty : loop.context ≠ []) :
    Text.lines loop.report = loop.head :: (Text.lines loop.context ++ [bracketHint]) := by
  have joined : loop.report = loop.head ++ '\n' :: (loop.context ++ '\n' :: bracketHint) := by
    rw [UnterminatedLoop.report, if_neg (fun empty => nonempty (List.isEmpty_iff.mp empty))]
    simp only [Text.unlines, List.intercalate_cons_cons, List.intercalate_singleton,
      List.append_assoc, List.singleton_append]
  have hint : '\n' ∉ bracketHint := by decide
  rw [joined, Text.lines_append_lineEnd, Text.lines_append_lineEnd,
    Text.lines_of_not_mem (lineEnd_not_mem_head message), Text.lines_of_not_mem hint]
  rfl

/-! ## A bracket that has been found -/

/-- Around a line that the text has there is always an excerpt, of at most two lines on
either side. -/
theorem length_context {row : Nat} (inside : row < (Text.lines source).length) :
    1 ≤ (excerpt (Text.lines source) (row + 1 : Nat) 2).length ∧
      (excerpt (Text.lines source) (row + 1 : Nat) 2).length ≤ 5 := by
  have length : (excerpt (Text.lines source) (row + 1 : Nat) 2).length =
      min (Text.lines source).length (row + 2 + 1) - (row - 2) := length_excerpt inside 2
  omega

/-- A report of a position leads to the character there, if that is not a line end. -/
theorem pointsAt_of_getElem? (found : source[position]? = some bracket)
    (different : bracket ≠ '\n') : PointsAt source position bracket (.at source position) := by
  rcases Text.locate_of_getElem? found different with
    ⟨row, column, content, atRow, atColumn, whole, here⟩
  have inside : row < (Text.lines source).length := (List.getElem?_eq_some_iff.mp whole).1
  have single : forall text, text ∈ Text.lines source -> '\n' ∉ text :=
    fun _ member => Text.not_mem_of_mem_lines member
  have context : (UnterminatedLoop.at source position).context =
      excerptText (Text.lines source) (row + 1 : Nat) 2 := by
    rw [UnterminatedLoop.at, atRow]
    rfl
  constructor
  · rfl
  · exact ⟨(List.getElem?_eq_some_iff.mp found).1, found⟩
  · refine ⟨row, column, content, congrArg Nat.cast atRow, atColumn, whole, here, ?_⟩
    rw [context]
    exact excerpted single inside 2
  · exact ⟨rfl, rfl⟩
  · have printed : Text.lines (excerptText (Text.lines source) (row + 1 : Nat) 2) =
        (excerpt (Text.lines source) (row + 1 : Nat) 2).map Row.render :=
      lines_excerptText single inside 2
    rw [context, printed, List.length_map]
    exact length_context inside
  · apply lines_report rfl
    rw [context]
    exact excerptText_ne_nil inside 2

/-! ## Both ways of failing -/

/-- Every report of an unterminated loop leads to a bracket of the text: to an opening
bracket when the text cannot be read, and when a step fails to the bracket that the
counter is on and that has to jump. -/
theorem unterminated_loops_are_brackets (source : List Char) :
    (forall fault, Tree.read source = .error fault ->
      Exists fun loop => Failure.ofUnmatched source fault = .unterminated loop ∧
        PointsAt source fault.position '[' loop) ∧
    forall limit state left fault loop,
      Machine.step ⟨source, limit⟩ state = ⟨left, .error fault⟩ ->
        Failure.ofFault source fault = .unterminated loop ->
          Exists fun bracket => PointsAt source state.counter bracket loop ∧
            ((bracket = '[' ∧ state.tape.cell = 0) ∨ (bracket = ']' ∧ state.tape.cell ≠ 0)) := by
  constructor
  · intro fault fails
    refine ⟨.at source fault.position, rfl, ?_⟩
    rcases Tree.read_terminated_or_blames source with
      ⟨_, tree, reads⟩ | ⟨position, blames, unclosed, _⟩
    · rw [reads] at fails
      cases fails
    · rw [blames] at fails
      cases fails
      exact pointsAt_of_getElem? unclosed.1 (by decide)
  · intro limit state left fault loop failed told
    cases fault with
    | overBudget steps limit => cases told
    | unmatched position =>
        cases told
        rcases Machine.jumpDue_of_unmatched failed with ⟨here, due⟩
        rw [here]
        rcases due with ⟨opens, zero⟩ | ⟨closes, nonzero⟩
        · exact ⟨'[', pointsAt_of_getElem? opens (by decide), Or.inl ⟨rfl, zero⟩⟩
        · exact ⟨']', pointsAt_of_getElem? closes (by decide), Or.inr ⟨rfl, nonzero⟩⟩

/-- In a text of three lines reading stops at the opening bracket of the second, and a run
at the closing bracket in front of it. -/
theorem brackets_of_second_line :
    (Tree.read ['+', '\n', ']', '[', '\n', '-'] = .error ⟨3⟩ ∧
      PointsAt ['+', '\n', ']', '[', '\n', '-'] 3 '[' (.at ['+', '\n', ']', '[', '\n', '-'] 3)) ∧
    (Machine.step ⟨['+', '\n', ']', '[', '\n', '-'], none⟩ ⟨Tape.blank.increment, 2, #[], 1⟩ =
        ⟨⟨Tape.blank.increment, 2, #[], 2⟩, .error (.unmatched 2)⟩ ∧
      PointsAt ['+', '\n', ']', '[', '\n', '-'] 2 ']'
        (.at ['+', '\n', ']', '[', '\n', '-'] 2)) := by
  rcases unterminated_loops_are_brackets ['+', '\n', ']', '[', '\n', '-'] with ⟨reading, stepping⟩
  have refused : Tree.read ['+', '\n', ']', '[', '\n', '-'] = .error ⟨3⟩ := by cbv
  have lost : Machine.landing ['+', '\n', ']', '[', '\n', '-'] .loopStop
      Tape.blank.increment.cell 2 = .error (.unmatched 2) := by
    rw [Machine.blank_increment_cell]
    rfl
  have failed : Machine.step ⟨['+', '\n', ']', '[', '\n', '-'], none⟩
      ⟨Tape.blank.increment, 2, #[], 1⟩ =
        ⟨⟨Tape.blank.increment, 2, #[], 2⟩, .error (.unmatched 2)⟩ :=
    @Machine.step_stranded ⟨_, none⟩ ⟨_, 2, _, _⟩ ']' .loopStop rfl rfl rfl _ lost
  constructor
  · rcases reading _ refused with ⟨loop, told, points⟩
    cases told
    exact ⟨refused, points⟩
  · rcases stepping _ _ _ _ _ failed rfl with ⟨bracket, points, which⟩
    have closes : bracket = ']' := (Option.some.inj points.found.2).symm
    rw [closes] at points
    exact ⟨failed, points⟩

end Report
end LoopTape
