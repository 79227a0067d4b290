import Mathlib.Data.Int.Range
import LoopTape.Proofs.Text.Decimals
import LoopTape.Proofs.Text.Lines
import LoopTape.Report.Excerpt

namespace LoopTape

/-!
# The window of an excerpt

An excerpt is asked for by the number of a line and by how many lines are wanted around it.
Both may be any integers.  The numbers of the lines that are shown are those from the first
to the last of a window, which has been cut off at both ends of the text.  The cuts leave
only numbers that the text has lines for, so each line is found where it is looked up, and
no number below one is ever looked up from the end.  What is left may be nothing: the line
may be far below the text, or fewer lines than none may be wanted.

A printed row gives its number and its line back.  The mark, the blanks and the digits in
front of the first bar do not contain a bar, so this bar is the one that was printed, even
where the line has more of them.  The digits are all that stands between the blanks and
the bar, whether or not they fit into their field.
-/

namespace Text

/-- A text cut at the first place where the separator stands in it. -/
def cutAt? (separator : List Char) : List Char -> Option (List Char × List Char)
  | [] => if separator = [] then some ([], []) else none
  | character :: rest =>
    if separator.isPrefixOf (character :: rest) then
      some ([], (character :: rest).drop separator.length)
    else (cutAt? separator rest).map (fun cut => (character :: cut.1, cut.2))

end Text

namespace Report

/-- The separator between the number and the line of a row. -/
def bar : List Char := [' ', '|', ' ']

theorem cutAt?_bar {front : List Char} (absent : '|' ∉ front) (back : List Char) :
    Text.cutAt? bar (front ++ (bar ++ back)) = some (front, back) := by
  induction front with
  | nil => rfl
  | cons character rest inductionHypothesis =>
      have absentBehind : '|' ∉ rest := fun member => absent (List.mem_cons_of_mem character member)
      -- The bar cannot begin here, because its second character would be the next one.
      have later : bar.isPrefixOf (character :: (rest ++ (bar ++ back))) = false := by
        cases rest with
        | nil => simp only [bar, List.nil_append, List.cons_append, List.isPrefixOf,
            show ('|' == ' ') = false from rfl, Bool.false_and, Bool.and_false]
        | cons next others =>
            have different : ('|' == next) = false :=
              beq_eq_false_iff_ne.mpr fun same => absentBehind (same ▸ List.mem_cons_self)
            simp only [bar, List.cons_append, List.isPrefixOf, different, Bool.false_and,
              Bool.and_false]
      rw [List.cons_append, Text.cutAt?, later, inductionHypothesis absentBehind]
      rfl

/-! ## A row -/

/-- What is printed of a row in front of its bar: the mark and the number in its field. -/
def Row.front (row : Row) : List Char :=
  (if row.marked then '>' else ' ') :: ' ' :: Text.alignRight 4 (Text.natural row.number)

theorem render_eq (row : Row) : row.render = row.front ++ (bar ++ row.text) := by
  simp only [Row.render, Row.front, List.cons_append, List.append_assoc]
  rfl

theorem head?_render (row : Row) :
    row.render.head? = some (if row.marked then '>' else ' ') := rfl

theorem not_mem_front {character : Char} (notDigit : character.isDigit = false)
    (notSpace : character ≠ ' ') (notMark : character ≠ '>') (row : Row) :
    character ∉ row.front := by
  intro member
  rcases List.mem_cons.mp member with mark | member
  · split at mark
    · exact notMark mark
    · exact notSpace mark
  rcases List.mem_cons.mp member with space | number
  · exact notSpace space
  · exact Text.not_mem_alignRight notSpace (Text.not_mem_natural notDigit row.number) number

theorem lineEnd_not_mem_render {row : Row} (single : '\n' ∉ row.text) : '\n' ∉ row.render := by
  rw [render_eq, List.mem_append, List.mem_append]
  rintro (front | inBar | text)
  · exact not_mem_front rfl (by decide) (by decide) row front
  · exact absurd inBar (by decide)
  · exact single text

/-- The line and the number that a printed row shows.  The number is what stands behind the
mark and the blanks and in front of the first bar, and the line is all that follows. -/
def readRow? (printed : List Char) : Option (List Char × Int) :=
  (Text.cutAt? bar printed).bind fun cut =>
    (Text.readNatural? ((cut.1.drop 1).dropWhile (fun character => character == ' '))).map
      fun number : Nat => (cut.2, (number : Int))

theorem dropWhile_front (row : Row) :
    (row.front.drop 1).dropWhile (fun character => character == ' ') = Text.natural row.number := by
  rcases List.exists_cons_of_ne_nil (Text.natural_ne_nil row.number) with ⟨first, later, digits⟩
  have notSpace : ¬ (first == ' ') = true := by
    rw [beq_iff_eq]
    rintro rfl
    exact Text.not_mem_natural rfl row.number (digits ▸ List.mem_cons_self)
  have blanks : forall character, character ∈ ' ' :: List.replicate (4 - (first :: later).length) ' ' ->
      (character == ' ') = true := by
    intro character member
    rcases List.mem_cons.mp member with space | padding
    · exact beq_iff_eq.mpr space
    · exact beq_iff_eq.mpr (List.eq_of_mem_replicate padding)
  rw [Row.front, List.drop_one, List.tail_cons, Text.alignRight, digits, ← List.cons_append,
    List.dropWhile_append_of_pos blanks]
  exact List.dropWhile_cons_of_neg notSpace

/-- A printed row shows its line and its number, whatever the line contains. -/
theorem readRow?_render (row : Row) : readRow? row.render = some (row.text, (row.number : Int)) := by
  have absent := not_mem_front rfl (show '|' ≠ ' ' by decide) (by decide) row
  rw [readRow?, render_eq, cutAt?_bar absent, Option.bind_some]
  dsimp only
  rw [dropWhile_front, Text.readNatural?_natural]
  rfl

/-! ## The lines that are shown -/

/-- The number of the line that an excerpt is about. -/
def focusOf (line : Int) : Int := max 1 line

/-- The number of the first line that is shown. -/
def firstShown (line around : Int) : Int := max 1 (focusOf line - around)

/-- The number of the last line that is shown, if any is. -/
def lastShown (lines : List (List Char)) (line around : Int) : Int :=
  min (lines.length : Int) (focusOf line + around)

/-- The line of a number, by a strict look-up that counts back from the end below one. -/
def lineAt? (lines : List (List Char)) (number : Int) : Option (List Char) :=
  (Text.place? lines.length (number - 1)).bind (fun place => lines[place]?)

/-- The row of the line of a number. -/
def rowAt? (lines : List (List Char)) (line number : Int) : Option Row :=
  (lineAt? lines number).map fun text => ⟨decide (number = focusOf line), number.toNat, text⟩

/-- The rows of an excerpt, if every line of the window is found where it is looked up. -/
def rowsByNumber? (lines : List (List Char)) (line around : Int) : Option (List Row) :=
  (Int.range (firstShown line around) (lastShown lines line around + 1)).mapM (rowAt? lines line)

variable {lines : List (List Char)} {line around number : Int}

theorem one_le_firstShown : 1 ≤ firstShown line around := Int.le_max_left _ _

theorem lastShown_le_length : lastShown lines line around ≤ lines.length := Int.min_le_left _ _

theorem lineAt?_eq_getElem? (positive : 1 ≤ number) :
    lineAt? lines number = lines[(number - 1).toNat]? :=
  Text.bind_place?_of_nonneg lines (Int.sub_nonneg_of_le positive)

theorem exists_lineAt? (positive : 1 ≤ number) (inside : number ≤ lines.length) :
    Exists fun text => lineAt? lines number = some text := by
  have place : (number - 1).toNat < lines.length := by omega
  exact ⟨_, (lineAt?_eq_getElem? positive).trans (List.getElem?_eq_getElem place)⟩

theorem exists_rowAt? (positive : 1 ≤ number) (inside : number ≤ lines.length) (line : Int) :
    Exists fun text => lineAt? lines number = some text ∧
      rowAt? lines line number = some ⟨decide (number = focusOf line), number.toNat, text⟩ := by
  rcases exists_lineAt? positive inside with ⟨text, found⟩
  refine ⟨text, found, ?_⟩
  rw [rowAt?, found]
  rfl

theorem mem_of_lineAt? {text : List Char} (found : lineAt? lines number = some text) :
    text ∈ lines := by
  rcases Option.bind_eq_some_iff.mp found with ⟨place, _, there⟩
  exact List.mem_of_getElem? there

/-- The rows are those of the numbers from the first that is shown on. -/
theorem getElem?_excerpt_shown (lines : List (List Char)) (line around : Int) (index : Nat) :
    (excerpt lines line around)[index]? =
      if firstShown line around + index ≤ lastShown lines line around then
        rowAt? lines line (firstShown line around + index)
      else none := by
  have positive := @one_le_firstShown line around
  have within := @lastShown_le_length lines line around
  change ((numbered lines (firstShown line around) (lastShown lines line around)).map
    (fun entry => (⟨decide ((entry.1 : Int) = focusOf line), entry.1, entry.2⟩ : Row)))[index]? = _
  simp only [numbered, List.map_map, List.getElem?_map, List.getElem?_take, List.getElem?_drop,
    List.getElem?_zipIdx]
  by_cases shown : firstShown line around + index ≤ lastShown lines line around
  · have place : (firstShown line around - 1).toNat + index =
        (firstShown line around + index - 1).toNat := by omega
    have inside : (firstShown line around + index - 1).toNat < lines.length := by omega
    have number : 1 + (firstShown line around + index - 1).toNat =
        (firstShown line around + index).toNat := by omega
    have whole : (((firstShown line around + index).toNat : Nat) : Int) =
        firstShown line around + index := Int.toNat_of_nonneg (by omega)
    rw [if_pos (by omega), if_pos shown, place, List.getElem?_eq_getElem inside, rowAt?,
      lineAt?_eq_getElem? (by omega), List.getElem?_eq_getElem inside]
    simp only [Option.map_some, Function.comp_apply, number, whole]
  · rw [if_neg (by omega), if_neg shown]
    rfl

/-- The rows of an excerpt are found by their numbers, one after the other. -/
theorem map_some_excerpt (lines : List (List Char)) (line around : Int) :
    (excerpt lines line around).map some =
      (Int.range (firstShown line around) (lastShown lines line around + 1)).map
        (rowAt? lines line) := by
  apply List.ext_getElem?
  intro index
  have positive := @one_le_firstShown line around
  have within := @lastShown_le_length lines line around
  rw [List.getElem?_map, getElem?_excerpt_shown, Int.range, List.map_map, List.getElem?_map]
  by_cases shown : firstShown line around + index ≤ lastShown lines line around
  · have counted : index < (lastShown lines line around + 1 - firstShown line around).toNat := by
      omega
    rcases @exists_rowAt? lines (firstShown line around + index) (by omega) (by omega) line with
      ⟨text, _, found⟩
    rw [if_pos shown, List.getElem?_range counted, found]
    exact congrArg some found.symm
  · have ended : (List.range (lastShown lines line around + 1 - firstShown line around).toNat).length
        ≤ index := by
      rw [List.length_range]
      omega
    rw [if_neg shown, List.getElem?_eq_none ended]
    rfl

theorem length_excerpt_shown (lines : List (List Char)) (line around : Int) :
    (excerpt lines line around).length =
      (lastShown lines line around - firstShown line around + 1).toNat := by
  have length := congrArg List.length (map_some_excerpt lines line around)
  rw [List.length_map, Int.range, List.length_map, List.length_map, List.length_range] at length
  omega

theorem excerpt_eq_nil_iff :
    excerpt lines line around = [] ↔ lastShown lines line around < firstShown line around := by
  rw [← List.length_eq_zero_iff, length_excerpt_shown]
  omega

theorem text_mem_of_mem_excerpt {row : Row} (member : row ∈ excerpt lines line around) :
    row.text ∈ lines := by
  have found := List.mem_map_of_mem (f := some) member
  rw [map_some_excerpt] at found
  rcases List.mem_map.mp found with ⟨number, _, there⟩
  rcases Option.map_eq_some_iff.mp there with ⟨text, looked, rfl⟩
  exact mem_of_lineAt? looked

/-! ## The printed rows -/

/-- Whether a printed row has the mark of the line that was asked for. -/
def isMarked (printed : List Char) : Bool := printed.head? == some '>'

theorem isMarked_render (row : Row) : isMarked row.render = row.marked := by
  rw [isMarked, head?_render]
  cases row.marked <;> rfl

theorem excerptText_eq_nil_iff : excerptText lines line around = [] ↔ excerpt lines line around = [] := by
  rw [excerptText, Text.unlines]
  constructor
  · intro empty
    cases rows : excerpt lines line around with
    | nil => rfl
    | cons row later =>
        rw [rows, List.map_cons, Text.intercalate_cons, List.append_eq_nil_iff] at empty
        cases empty.1
  · intro empty
    rw [empty]
    rfl

/-- A printed excerpt is cut into its rows again. -/
theorem lines_excerptText_of_ne_nil (single : forall text, text ∈ lines -> '\n' ∉ text)
    (nonempty : excerpt lines line around ≠ []) :
    Text.lines (excerptText lines line around) = (excerpt lines line around).map Row.render := by
  apply Text.lines_unlines
  · exact fun empty => nonempty (List.map_eq_nil_iff.mp empty)
  · intro printed member
    rcases List.mem_map.mp member with ⟨row, found, rfl⟩
    exact lineEnd_not_mem_render (single row.text (text_mem_of_mem_excerpt found))

/-- Lines and numbers are read back from the rows, in order and none left out. -/
theorem map_readRow?_render (lines : List (List Char)) (line around : Int) :
    ((excerpt lines line around).map Row.render).map readRow? =
      (Int.range (firstShown line around) (lastShown lines line around + 1)).map
        (fun number => (lineAt? lines number).map (fun text => (text, number))) := by
  have rows := congrArg (List.map (Option.map (fun row : Row => (row.text, (row.number : Int)))))
    (map_some_excerpt lines line around)
  rw [List.map_map, List.map_map] at rows
  rw [List.map_map]
  calc
    (excerpt lines line around).map (readRow? ∘ Row.render) =
        (excerpt lines line around).map
          (Option.map (fun row : Row => (row.text, (row.number : Int))) ∘ some) :=
      List.map_congr_left fun row _ => readRow?_render row
    _ = _ := rows
    _ = _ := by
      apply List.map_congr_left
      intro number member
      have positive := @one_le_firstShown line around
      have whole : ((number.toNat : Nat) : Int) = number :=
        Int.toNat_of_nonneg (by have shown := Int.mem_range_iff.mp member; omega)
      simp only [Function.comp_apply, rowAt?, Option.map_map, Function.comp_def, whole]

/-! ## The marked row -/

/-- If a test holds at one index of a list alone, it picks out what is there. -/
theorem filter_eq_singleton {α : Type} {items : List α} {accepts : α -> Bool} {place : Nat}
    {item : α} (found : items[place]? = some item)
    (only : forall index other, items[index]? = some other -> (accepts other ↔ index = place)) :
    items.filter accepts = [item] := by
  induction items generalizing place with
  | nil => cases found
  | cons first later inductionHypothesis =>
      have head := only 0 first rfl
      cases place with
      | zero =>
          cases found
          have none : later.filter accepts = [] := by
            apply List.filter_eq_nil_iff.mpr
            intro other member accepted
            rcases List.getElem?_of_mem member with ⟨index, there⟩
            exact absurd ((only (index + 1) other there).mp accepted) (Nat.succ_ne_zero index)
          rw [List.filter_cons_of_pos (head.mpr rfl), none]
      | succ place =>
          have refused : ¬ accepts first := fun accepted =>
            Nat.succ_ne_zero place (head.mp accepted).symm
          rw [List.filter_cons_of_neg refused]
          apply inductionHypothesis found
          intro index other there
          rw [only (index + 1) other there]
          exact Nat.succ_inj

/-- A row is marked when its number is that of the line that was asked for. -/
theorem marked_of_getElem?_excerpt {index : Nat} {row : Row}
    (found : (excerpt lines line around)[index]? = some row) :
    firstShown line around + index ≤ lastShown lines line around ∧
      (row.marked = true ↔ firstShown line around + index = focusOf line) := by
  rw [getElem?_excerpt_shown] at found
  by_cases shown : firstShown line around + index ≤ lastShown lines line around
  · rw [if_pos shown] at found
    rcases Option.map_eq_some_iff.mp found with ⟨text, _, rfl⟩
    exact ⟨shown, decide_eq_true_iff⟩
  · rw [if_neg shown] at found
    cases found

theorem filter_isMarked_of_shown (wanted : 0 ≤ around) (inside : focusOf line ≤ lines.length) :
    Exists fun text => lineAt? lines (focusOf line) = some text ∧
      ((excerpt lines line around).map Row.render).filter isMarked =
        [Row.render ⟨true, (focusOf line).toNat, text⟩] := by
  have positive : 1 ≤ focusOf line := Int.le_max_left _ _
  have above : firstShown line around ≤ focusOf line := Int.max_le.mpr ⟨positive, by omega⟩
  have below : focusOf line ≤ lastShown lines line around := Int.le_min.mpr ⟨inside, by omega⟩
  have place : firstShown line around + ((focusOf line - firstShown line around).toNat : Nat) =
      focusOf line := by omega
  rcases exists_rowAt? positive inside line with ⟨text, looked, found⟩
  refine ⟨text, looked, ?_⟩
  apply @filter_eq_singleton _ _ _ (focusOf line - firstShown line around).toNat
  · rw [List.getElem?_map, getElem?_excerpt_shown, place, if_pos below, found, decide_eq_true rfl]
    rfl
  · intro index printed there
    rw [List.getElem?_map] at there
    rcases Option.map_eq_some_iff.mp there with ⟨row, rowThere, rfl⟩
    rw [isMarked_render, (marked_of_getElem?_excerpt rowThere).2]
    omega

theorem filter_isMarked_of_not_shown (apart : around < 0 ∨ (lines.length : Int) < focusOf line) :
    ((excerpt lines line around).map Row.render).filter isMarked = [] := by
  apply List.filter_eq_nil_iff.mpr
  intro printed member marked
  rcases List.mem_map.mp member with ⟨row, rowMember, rfl⟩
  rcases List.getElem?_of_mem rowMember with ⟨index, there⟩
  rcases marked_of_getElem?_excerpt there with ⟨shown, atFocus⟩
  rw [isMarked_render, atFocus] at marked
  rw [marked] at shown
  have short : lastShown lines line around ≤ focusOf line + around := Int.min_le_right _ _
  have within := @lastShown_le_length lines line around
  omega

/-! ## All windows -/

/-- An excerpt shows the lines of its window, each found where it is looked up by its number.
The printed rows give these lines and numbers back, one row for each, and nothing is printed
when the window is empty.  The line that was asked for is marked if it is shown. -/
theorem excerpts_show_their_windows (single : forall text, text ∈ lines -> '\n' ∉ text)
    (line around : Int) :
    (forall number, firstShown line around ≤ number -> number ≤ lastShown lines line around ->
      Exists fun text => lineAt? lines number = some text ∧
        lines[(number - 1).toNat]? = some text) ∧
    rowsByNumber? lines line around = some (excerpt lines line around) ∧
    (excerptText lines line around = [] ↔
      lastShown lines line around < firstShown line around) ∧
    (firstShown line around ≤ lastShown lines line around ->
      (Text.lines (excerptText lines line around)).length =
          lastShown lines line around - firstShown line around + 1 ∧
        (Text.lines (excerptText lines line around)).map readRow? =
          (Int.range (firstShown line around) (lastShown lines line around + 1)).map
            (fun number => (lineAt? lines number).map (fun text => (text, number)))) ∧
    (0 ≤ around -> focusOf line ≤ lines.length ->
      Exists fun printed => Exists fun text =>
        (Text.lines (excerptText lines line around)).filter isMarked = [printed] ∧
          lineAt? lines (focusOf line) = some text ∧
          readRow? printed = some (text, focusOf line)) ∧
    (around < 0 ∨ (lines.length : Int) < focusOf line ->
      (Text.lines (excerptText lines line around)).filter isMarked = []) := by
  have positive := @one_le_firstShown line around
  have within := @lastShown_le_length lines line around
  refine ⟨?_, ?_, ?_, ?_, ?_, ?_⟩
  · intro number above below
    rcases @exists_lineAt? lines number (by omega) (by omega) with ⟨text, found⟩
    exact ⟨text, found, lineAt?_eq_getElem? (Int.le_trans positive above) ▸ found⟩
  · exact Text.mapM_eq_some (map_some_excerpt lines line around).symm
  · rw [excerptText_eq_nil_iff, excerpt_eq_nil_iff]
  · intro nonempty
    have rows : excerpt lines line around ≠ [] := fun empty =>
      Int.not_lt.mpr nonempty (excerpt_eq_nil_iff.mp empty)
    rw [lines_excerptText_of_ne_nil single rows]
    refine ⟨?_, map_readRow?_render lines line around⟩
    rw [List.length_map, length_excerpt_shown]
    omega
  · intro wanted inside
    rcases filter_isMarked_of_shown wanted inside with ⟨text, looked, alone⟩
    have rows : excerpt lines line around ≠ [] := by
      intro empty
      rw [empty] at alone
      cases alone
    have whole : (((focusOf line).toNat : Nat) : Int) = focusOf line :=
      Int.toNat_of_nonneg (Int.le_trans (by decide) (Int.le_max_left 1 line))
    rw [lines_excerptText_of_ne_nil single rows]
    refine ⟨_, text, alone, looked, ?_⟩
    rw [readRow?_render, whole]
  · intro apart
    by_cases rows : excerpt lines line around = []
    · rw [excerptText_eq_nil_iff.mpr rows]
      rfl
    · rw [lines_excerptText_of_ne_nil single rows]
      exact filter_isMarked_of_not_shown apart

/-- The lines of the text hold bars, marks and digits of their own.  Below the text the window
still shows its last two lines, but no mark. -/
theorem windows_of_barred_lines :
    (forall text, text ∈ ["7 | 7".toList, "> 1 | ".toList, [' ', '|', ' ']] -> '\n' ∉ text) ∧
      (Text.lines (excerptText ["7 | 7".toList, "> 1 | ".toList, [' ', '|', ' ']] 2 4)).map
          readRow? =
        [some ("7 | 7".toList, 1), some ("> 1 | ".toList, 2), some ([' ', '|', ' '], 3)] ∧
      (Text.lines (excerptText ["7 | 7".toList, "> 1 | ".toList, [' ', '|', ' ']] 4 2)).map
          readRow? =
        [some ("> 1 | ".toList, 2), some ([' ', '|', ' '], 3)] ∧
      (Text.lines (excerptText ["7 | 7".toList, "> 1 | ".toList, [' ', '|', ' ']] 4 2)).filter
          isMarked = [] ∧
      excerptText ["7 | 7".toList, "> 1 | ".toList, [' ', '|', ' ']] 2 (-1) = [] := by
  have single : forall text, text ∈ ["7 | 7".toList, "> 1 | ".toList, [' ', '|', ' ']] ->
      '\n' ∉ text := by decide
  rcases excerpts_show_their_windows single 2 4 with ⟨_, _, _, whole, _, _⟩
  rcases excerpts_show_their_windows single 4 2 with ⟨_, _, _, short, _, unmarked⟩
  rcases excerpts_show_their_windows single 2 (-1) with ⟨_, _, empty, _, _, _⟩
  exact ⟨single, (whole (by decide)).2.trans (by decide), (short (by decide)).2.trans (by decide),
    unmarked (Or.inr (by decide)), empty.mpr (by decide)⟩

end Report
end LoopTape
