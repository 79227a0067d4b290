import Mathlib.Algebra.BigOperators.Group.List.Basic
import Mathlib.Algebra.GroupWithZero.Nat
import LoopTape.Proofs.Report.Excerpts
import LoopTape.Report.Failure

namespace LoopTape

/-!
# Places and positions

A line of a text begins where the lines above it and their line ends have been counted.
A place is a line and a column, and it denotes the position that many characters behind
the beginning of its line.  The column may go up to the line end, so that a line has one
place more than characters, and the last line keeps that place although no line end
follows it.

Every position from the front of a text to its end is denoted by one place alone, and
later positions have later places.  A position outside the text has a place as well.  Its
line is the first or the last one that there is, and the column says how far outside it
is, so the position can still be computed from the place.
-/

namespace Text

/-- How many characters of a text stand in front of a line, counted from zero. -/
def lineStart (text : List Char) (row : Nat) : Nat :=
  (((lines text).take row).map (fun line => line.length + 1)).sum

/-- A place denotes a position if it is a place of the text and as far from its front. -/
structure Denotes (text : List Char) (place : Location) (position : Int) : Prop where
  counted : 1 ≤ place.line
  inside : Exists fun line => (lines text)[place.line - 1]? = some line ∧
    1 ≤ place.column ∧ place.column ≤ line.length + 1
  reached : lineStart text (place.line - 1) + (place.column - 1) = position

/-- One place comes before another, by the line first and then by the column. -/
def Location.Precedes (first second : Location) : Prop :=
  first.line < second.line ∨ (first.line = second.line ∧ first.column < second.column)

/-! ## Where lines begin -/

variable {text : List Char}

theorem lineStart_succ {row : Nat} {line : List Char} (found : (lines text)[row]? = some line) :
    lineStart text (row + 1) = lineStart text row + line.length + 1 := by
  rw [lineStart, List.take_add_one, found, List.map_append, List.sum_append]
  exact (Nat.add_assoc _ _ _).symm

theorem lineStart_mono {first second : Nat} (later : first ≤ second) :
    lineStart text first ≤ lineStart text second := by
  rcases Nat.exists_eq_add_of_le later with ⟨more, rfl⟩
  rw [lineStart, lineStart, List.take_add, List.map_append, List.sum_append]
  exact Nat.le_add_right _ _

/-- Every line is counted with a line end, so one more is counted than there are. -/
theorem sum_lines (text : List Char) :
    ((lines text).map (fun line => line.length + 1)).sum = text.length + 1 := by
  induction text with
  | nil => rfl
  | cons character rest inductionHypothesis =>
      by_cases lineEnd : character = '\n'
      · rw [lineEnd, lines_lineEnd_cons, List.map_cons, List.sum_cons, inductionHypothesis]
        exact Nat.add_comm _ _
      · rw [lines_cons lineEnd, List.length_cons, ← inductionHypothesis]
        cases later : lines rest with
        | nil => exact absurd later (List.splitOn_ne_nil '\n' rest)
        | cons first others =>
            rw [List.modifyHead_cons, List.map_cons, List.sum_cons, List.map_cons, List.sum_cons,
              List.length_cons]
            omega

theorem exists_before_append (text : List Char) (position : Int) :
    Exists fun back => before text position ++ back = text := by
  rw [before]
  split
  · exact ⟨_, List.take_append_drop _ text⟩
  · exact ⟨_, List.take_append_drop _ text⟩

/-- The characters in front of a position fill the lines above its line and reach into
this line. -/
theorem exists_line_of_locate (text : List Char) (position : Int) :
    Exists fun row => Exists fun line =>
      (locate text position).line = row + 1 ∧ (lines text)[row]? = some line ∧
        lineStart text row = lastLineStart (before text position) ∧
        lineStart text row ≤ (before text position).length ∧
        (before text position).length ≤ lineStart text row + line.length := by
  rcases exists_before_append text position with ⟨back, whole⟩
  rcases exists_lines_above (before text position) with ⟨above, begun, rows, length, alone, onward⟩
  have split := onward back
  rw [whole] at split
  have counted : (above.map (fun line => line.length + 1)).sum =
      lastLineStart (before text position) := by
    have sum := sum_lines (before text position)
    have short := onward []
    rw [List.append_nil, List.append_nil, lines_of_not_mem alone] at short
    rw [short, List.map_append, List.sum_append, List.map_singleton, List.sum_singleton,
      ← length] at sum
    omega
  have starts : lineStart text above.length = lastLineStart (before text position) := by
    rw [lineStart, split, List.take_left, counted]
  have found : (lines text)[above.length]? =
      some (begun ++ back.takeWhile (fun character => character != '\n')) := by
    rw [split, List.getElem?_append_right (Nat.le_refl _), Nat.sub_self, getElem?_zero_lines,
      takeWhile_append_of_not_mem alone]
  refine ⟨above.length, _, ?_, found, starts, ?_, ?_⟩
  · rw [locate, rows]
  · rw [starts]
    exact Nat.sub_le _ _
  · rw [starts, ← length, List.length_append]
    omega

/-! ## One place for each position -/

variable {first second : Location} {position other : Int}

/-- The places of a line denote positions in front of those of the next lines. -/
theorem Denotes.lt_of_line_lt (here : Denotes text first position)
    (there : Denotes text second other) (above : first.line < second.line) : position < other := by
  rcases here with ⟨counted, ⟨line, found, _, short⟩, reached⟩
  rcases there with ⟨_, ⟨_, _, positive, _⟩, reached'⟩
  have next := lineStart_succ found
  have later := @lineStart_mono text (first.line - 1 + 1) (second.line - 1) (by omega)
  omega

/-- Places follow one another as the positions do that they denote. -/
theorem Denotes.precedes (here : Denotes text first position) (there : Denotes text second other)
    (earlier : position < other) : first.Precedes second := by
  rcases Nat.lt_trichotomy first.line second.line with above | same | below
  · exact Or.inl above
  · have reached := here.reached
    have reached' := there.reached
    rw [same] at reached
    exact Or.inr ⟨same, by omega⟩
  · have behind := there.lt_of_line_lt here below
    omega

theorem Denotes.place_unique (here : Denotes text first position)
    (there : Denotes text second position) : first = second := by
  have same : first.line = second.line := by
    rcases Nat.lt_trichotomy first.line second.line with above | same | below
    · exact absurd (here.lt_of_line_lt there above) (Int.lt_irrefl position)
    · exact same
    · exact absurd (there.lt_of_line_lt here below) (Int.lt_irrefl position)
  have reached := here.reached
  have reached' := there.reached
  rw [same] at reached
  have columns : first.column = second.column := by omega
  cases first
  cases second
  cases same
  cases columns
  rfl

theorem denotes_locate {position : Nat} (inside : position ≤ text.length) :
    Denotes text (locate text position) position := by
  rcases exists_line_of_locate text position with
    ⟨row, line, placed, found, starts, begins, reaches⟩
  have front : before text position = text.take position := if_pos (Int.natCast_nonneg position)
  have length : (before text position).length = position := by
    rw [front, List.length_take_of_le inside]
  have column : (locate text position).column =
      (position : Int) - lastLineStart (before text position) + 1 := rfl
  rw [length] at begins reaches
  constructor
  · rw [placed]
    exact Nat.le_add_left 1 row
  · refine ⟨line, ?_, ?_, ?_⟩
    · rw [placed]
      exact found
    · omega
    · omega
  · rw [placed, Nat.add_sub_cancel, starts, column]
    omega

end Text

namespace Report

open LoopTape.Text

theorem marked_once (text : List Char) (position : Int) :
    (lines (UnterminatedLoop.at text position).context).countP
      (fun row => row.head? == some '>') = 1 := by
  rcases exists_line_of_locate text position with ⟨row, _, placed, found, _⟩
  have inside : row < (lines text).length := (List.getElem?_eq_some_iff.mp found).1
  rcases (excerpted (fun _ member => not_mem_of_mem_lines member) inside 2).marked with
    ⟨shown, _, marked⟩
  have context : (UnterminatedLoop.at text position).context =
      excerptText (lines text) (row + 1 : Nat) (2 : Nat) := by
    rw [UnterminatedLoop.at, placed]
    rfl
  rw [context, List.countP_eq_length_filter, marked, List.length_singleton]

/-- The line of a place is one of the text, whatever the position is, and the position can
be computed from the place.  From the front of the text to its end the place is the only
one that denotes the position, and later positions have later places.  The excerpt in a
report of the position has one mark. -/
theorem places_keep_positions (text : List Char) :
    (forall position : Int,
      1 ≤ (locate text position).line ∧ (locate text position).line ≤ (lines text).length ∧
        (lineStart text ((locate text position).line - 1) : Int) +
          ((locate text position).column - 1) = position ∧
        (lines (UnterminatedLoop.at text position).context).countP
          (fun row => row.head? == some '>') = 1) ∧
    (forall position : Nat, position ≤ text.length ->
      forall place, Denotes text place position ↔ place = locate text position) ∧
    (forall position other : Nat, position < other -> other ≤ text.length ->
      (locate text position).Precedes (locate text other)) := by
  refine ⟨?_, ?_, ?_⟩
  · intro position
    rcases exists_line_of_locate text position with ⟨row, _, placed, found, starts, _⟩
    have inside : row < (lines text).length := (List.getElem?_eq_some_iff.mp found).1
    have column : (locate text position).column =
        position - lastLineStart (before text position) + 1 := rfl
    refine ⟨?_, ?_, ?_, marked_once text position⟩
    · rw [placed]
      exact Nat.le_add_left 1 row
    · rw [placed]
      exact inside
    · rw [placed, Nat.add_sub_cancel, starts, column]
      omega
  · intro position inside place
    constructor
    · intro denotes
      exact denotes.place_unique (denotes_locate inside)
    · intro same
      rw [same]
      exact denotes_locate inside
  · intro position other earlier inside
    have here := denotes_locate (Nat.le_trans (Nat.le_of_lt earlier) inside)
    exact here.precedes (denotes_locate inside) (Int.ofNat_lt.mpr earlier)

/-- The end of the text is the only place of its empty last line.  A line end is the last
place of its own line, and nine characters in front of the text still are on the first. -/
theorem places_of_two_lines :
    (forall place, Denotes ['a', '\n', 'b', '\n'] place (4 : Nat) ↔ place = ⟨3, 1⟩) ∧
      locate ['a', '\n', 'b', '\n'] 1 = ⟨1, 2⟩ ∧ locate ['a', '\n', 'b', '\n'] 2 = ⟨2, 1⟩ ∧
      Location.Precedes (locate ['a', '\n', 'b', '\n'] (1 : Nat))
        (locate ['a', '\n', 'b', '\n'] (2 : Nat)) ∧
      locate ['a', '\n', 'b', '\n'] (-9) = ⟨1, -8⟩ ∧
      (lineStart ['a', '\n', 'b', '\n'] ((locate ['a', '\n', 'b', '\n'] (-9)).line - 1) : Int) +
        ((locate ['a', '\n', 'b', '\n'] (-9)).column - 1) = -9 := by
  rcases places_keep_positions ['a', '\n', 'b', '\n'] with ⟨counted, unique, ordered⟩
  have last : locate ['a', '\n', 'b', '\n'] (4 : Nat) = ⟨3, 1⟩ := by decide
  refine ⟨?_, by decide, by decide, ordered 1 2 (by decide) (by decide), by decide,
    (counted (-9)).2.2.1⟩
  rw [← last]
  exact unique 4 (by decide)

end Report
end LoopTape
