import LoopTape.Proofs.Report.Windows

namespace LoopTape
namespace Report

/-!
# The rows of an excerpt

The window around a line of a text begins a few lines above it, or at the first line,
and ends a few lines below it, or at the last line.  Its rows are the lines between,
in order and none left out.  Each row is printed on one line of the excerpt, because
neither a number nor a line of a text holds a line end, so the printed excerpt is cut
into its rows again.

Here the line is one that the text has, and the lines around it are counted by a natural
number.  Such a window is never empty.  Rows and lines are counted from zero, their printed
numbers from one.
-/

variable {lines : List (List Char)} {row around : Nat}

/-! ## The window -/

theorem focusOf_natCast (row : Nat) : focusOf ((row + 1 : Nat) : Int) = (row + 1 : Nat) := by
  rw [focusOf]
  omega

theorem firstShown_natCast (row around : Nat) :
    firstShown ((row + 1 : Nat) : Int) around = (row - around + 1 : Nat) := by
  rw [firstShown, focusOf_natCast]
  omega

theorem length_excerpt (inside : row < lines.length) (around : Nat) :
    (excerpt lines (row + 1 : Nat) around).length =
      min lines.length (row + around + 1) - (row - around) := by
  rw [length_excerpt_shown, firstShown_natCast, lastShown, focusOf_natCast]
  omega

theorem excerpt_ne_nil (inside : row < lines.length) (around : Nat) :
    excerpt lines (row + 1 : Nat) around ≠ [] := by
  apply List.ne_nil_of_length_pos
  rw [length_excerpt inside]
  omega

/-- Every row is a line of the text with its number, and only the line in question is
marked. -/
theorem exists_of_getElem?_excerpt {index : Nat} {shown : Row}
    (found : (excerpt lines (row + 1 : Nat) around)[index]? = some shown) :
    Exists fun text => lines[row - around + index]? = some text ∧
      shown = ⟨decide (row - around + index = row), row - around + index + 1, text⟩ := by
  have number : firstShown ((row + 1 : Nat) : Int) around + index =
      (row - around + index + 1 : Nat) := by
    rw [firstShown_natCast]
    omega
  have marked : decide (((row - around + index + 1 : Nat) : Int) = focusOf (row + 1 : Nat)) =
      decide (row - around + index = row) := by
    rw [focusOf_natCast]
    exact decide_eq_decide.mpr (by omega)
  rw [getElem?_excerpt_shown, number] at found
  split at found
  · rcases Option.map_eq_some_iff.mp found with ⟨text, looked, rfl⟩
    rw [lineAt?_eq_getElem? (by omega)] at looked
    refine ⟨text, ?_, ?_⟩
    · rw [← looked]
      congr 1
      omega
    · rw [marked]
      rfl
  · cases found

/-! ## The printed rows -/

/-- A printed excerpt is cut into its rows again. -/
theorem lines_excerptText (single : forall text, text ∈ lines -> '\n' ∉ text)
    (inside : row < lines.length) (around : Nat) :
    Text.lines (excerptText lines (row + 1 : Nat) around) =
      (excerpt lines (row + 1 : Nat) around).map Row.render :=
  lines_excerptText_of_ne_nil single (excerpt_ne_nil inside around)

theorem excerptText_ne_nil (inside : row < lines.length) (around : Nat) :
    excerptText lines (row + 1 : Nat) around ≠ [] := fun empty =>
  excerpt_ne_nil inside around (excerptText_eq_nil_iff.mp empty)

/-- Printed rows show consecutive lines of a text.  One line is among them and is the only
one with a mark. -/
structure Excerpted (lines : List (List Char)) (row : Nat) (rows : List (List Char)) : Prop where
  shown : Exists fun above : Nat => above ≤ row ∧ row < above + rows.length ∧
    forall index printed, rows[index]? = some printed ->
      Exists fun text => lines[above + index]? = some text ∧
        printed = Row.render ⟨decide (above + index = row), above + index + 1, text⟩
  marked : Exists fun text => lines[row]? = some text ∧
    rows.filter (fun printed => printed.head? == some '>') = [Row.render ⟨true, row + 1, text⟩]

theorem excerpted (single : forall text, text ∈ lines -> '\n' ∉ text)
    (inside : row < lines.length) (around : Nat) :
    Excerpted lines row (Text.lines (excerptText lines (row + 1 : Nat) around)) := by
  rw [lines_excerptText single inside]
  constructor
  · refine ⟨row - around, Nat.sub_le row around, ?_, ?_⟩
    · rw [List.length_map, length_excerpt inside]
      omega
    · intro index printed found
      rw [List.getElem?_map] at found
      rcases Option.map_eq_some_iff.mp found with ⟨entry, there, rfl⟩
      rcases exists_of_getElem?_excerpt there with ⟨text, line, rfl⟩
      exact ⟨text, line, rfl⟩
  · have shown : focusOf ((row + 1 : Nat) : Int) ≤ lines.length := by
      rw [focusOf_natCast]
      omega
    rcases filter_isMarked_of_shown (Int.natCast_nonneg around) shown with ⟨text, looked, alone⟩
    rw [focusOf_natCast, lineAt?_eq_getElem? (by omega)] at looked
    rw [focusOf_natCast] at alone
    refine ⟨text, ?_, alone⟩
    rw [← looked]
    congr 1
    omega

end Report
end LoopTape
