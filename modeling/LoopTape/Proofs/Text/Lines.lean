import LoopTape.Text.Lines

namespace LoopTape
namespace Text

/-!
# Cutting a text into lines

A line end is not a character of any line.  A text is therefore cut at its line ends
in one way only, and lines that hold no line end are got back from the text that they
are joined to.

The place of a position is found from the characters in front of it alone.  These are
some whole lines, each with the line end behind it, and the beginning of one more.
The lines are the first lines of the whole text too, and what follows the position
goes on with the line that was begun.
-/

variable {text front line : List Char} {character : Char}

/-! ## One line end -/

/-- A character other than a line end goes in front of the first line. -/
theorem lines_cons (different : character ≠ '\n') (rest : List Char) :
    lines (character :: rest) = (lines rest).modifyHead (List.cons character) := by
  rw [lines, List.splitOn_cons_eq_if_modifyHead, if_neg (mt eq_of_beq different), lines]

/-- A line end separates the lines in front of it from the lines behind it. -/
theorem lines_append_lineEnd (front back : List Char) :
    lines (front ++ '\n' :: back) = lines front ++ lines back :=
  List.splitOn_append_cons_self front back

theorem lines_lineEnd_cons (rest : List Char) : lines ('\n' :: rest) = [] :: lines rest :=
  lines_append_lineEnd [] rest

theorem lines_of_not_mem (alone : '\n' ∉ text) : lines text = [text] :=
  List.splitOn_eq_singleton alone

theorem takeWhile_cons_of_ne (different : character ≠ '\n') (rest : List Char) :
    (character :: rest).takeWhile (fun character => character != '\n') =
      character :: rest.takeWhile (fun character => character != '\n') :=
  List.takeWhile_cons_of_pos (bne_iff_ne.mpr different)

theorem takeWhile_append_of_not_mem (alone : '\n' ∉ front) (back : List Char) :
    (front ++ back).takeWhile (fun character => character != '\n') =
      front ++ back.takeWhile (fun character => character != '\n') :=
  List.takeWhile_append_of_pos
    (fun _ member => bne_iff_ne.mpr (fun lineEnd => alone (lineEnd ▸ member)))

/-- The first line goes up to the first line end. -/
theorem getElem?_zero_lines (text : List Char) :
    (lines text)[0]? = some (text.takeWhile (fun character => character != '\n')) := by
  induction text with
  | nil => rfl
  | cons character rest inductionHypothesis =>
      by_cases lineEnd : character = '\n'
      · rw [lineEnd, lines_lineEnd_cons]
        rfl
      · rw [lines_cons lineEnd, takeWhile_cons_of_ne lineEnd, List.getElem?_modifyHead_zero,
          inductionHypothesis, Option.map_some]

theorem not_mem_of_mem_lines (member : line ∈ lines text) : '\n' ∉ line := by
  induction text generalizing line with
  | nil =>
      rw [List.mem_singleton.mp member]
      exact List.not_mem_nil
  | cons character rest inductionHypothesis =>
      by_cases lineEnd : character = '\n'
      · rw [lineEnd, lines_lineEnd_cons] at member
        rcases List.mem_cons.mp member with first | later
        · rw [first]
          exact List.not_mem_nil
        · exact inductionHypothesis later
      · rw [lines_cons lineEnd] at member
        cases split : lines rest with
        | nil => exact absurd split (List.splitOn_ne_nil '\n' rest)
        | cons first others =>
            rw [split] at member inductionHypothesis
            rcases List.mem_cons.mp member with same | later
            · rw [same]
              intro found
              rcases List.mem_cons.mp found with here | behind
              · exact lineEnd here.symm
              · exact inductionHypothesis List.mem_cons_self behind
            · exact inductionHypothesis (List.mem_cons_of_mem first later)

/-! ## Lines joined -/

theorem intercalate_cons (between text : List Char) (later : List (List Char)) :
    between.intercalate (text :: later) = text ++ later.flatMap (fun next => between ++ next) := by
  induction later generalizing text with
  | nil => rw [List.intercalate_singleton, List.flatMap_nil, List.append_nil]
  | cons next later inductionHypothesis =>
      rw [List.intercalate_cons_cons, inductionHypothesis, List.flatMap_cons, List.append_assoc,
        List.append_assoc]

/-- A character of a joined text stands in one of its parts or between two of them. -/
theorem not_mem_intercalate {between : List Char} (apart : character ∉ between)
    {texts : List (List Char)} (absent : forall text, text ∈ texts -> character ∉ text) :
    character ∉ between.intercalate texts := by
  cases texts with
  | nil => exact List.not_mem_nil
  | cons text later =>
      rw [intercalate_cons]
      intro member
      rcases List.mem_append.mp member with first | behind
      · exact absent text List.mem_cons_self first
      · rcases List.mem_flatMap.mp behind with ⟨next, nextMember, found⟩
        rcases List.mem_append.mp found with separating | inNext
        · exact apart separating
        · exact absent next (List.mem_cons_of_mem text nextMember) inNext

/-- Lines are got back from the text that they are joined to. -/
theorem lines_unlines {rows : List (List Char)} (nonempty : rows ≠ [])
    (single : forall row, row ∈ rows -> '\n' ∉ row) : lines (unlines rows) = rows :=
  List.splitOn_intercalate '\n' single nonempty

/-! ## The characters in front of a position -/

/-- A text without a line end is the beginning of its first line, and any other is cut at
its last line end. -/
theorem lineEnd_cases (text : List Char) :
    '\n' ∉ text ∨ Exists fun above => Exists fun line =>
      text = above ++ '\n' :: line ∧ '\n' ∉ line := by
  by_cases found : '\n' ∈ text
  · rcases List.eq_append_cons_of_mem (List.mem_reverse.mpr found) with ⟨line, above, same, alone⟩
    refine Or.inr ⟨above.reverse, line.reverse, ?_,
      fun member => alone (List.mem_reverse.mp member)⟩
    have back := congrArg List.reverse same
    simpa only [List.reverse_reverse, List.reverse_append, List.reverse_cons, List.append_assoc,
      List.singleton_append] using back
  · exact Or.inl found

theorem lastLineStart_of_not_mem (alone : '\n' ∉ text) : lastLineStart text = 0 := by
  have all := takeWhile_append_of_not_mem (fun member => alone (List.mem_reverse.mp member)) []
  rw [List.append_nil, List.takeWhile_nil, List.append_nil] at all
  rw [lastLineStart, all, List.length_reverse, Nat.sub_self]

theorem lastLineStart_append_lineEnd (above : List Char) (alone : '\n' ∉ line) :
    lastLineStart (above ++ '\n' :: line) = above.length + 1 := by
  have back : (above ++ '\n' :: line).reverse = line.reverse ++ '\n' :: above.reverse := by
    simp only [List.reverse_append, List.reverse_cons, List.append_assoc, List.singleton_append]
  have last : (above ++ '\n' :: line).reverse.takeWhile (fun character => character != '\n') =
      line.reverse := by
    rw [back, takeWhile_append_of_not_mem (fun member => alone (List.mem_reverse.mp member))]
    exact List.append_nil line.reverse
  rw [lastLineStart, last, List.length_append, List.length_cons, List.length_reverse]
  omega

theorem length_lines (text : List Char) : (lines text).length = text.count '\n' + 1 := by
  induction text with
  | nil => rfl
  | cons character rest inductionHypothesis =>
      by_cases lineEnd : character = '\n'
      · rw [lineEnd, lines_lineEnd_cons, List.length_cons, inductionHypothesis,
          List.count_cons_self]
      · rw [lines_cons lineEnd, List.count_cons_of_ne lineEnd, List.length_modifyHead,
          inductionHypothesis]

/-- The characters in front of a position are some whole lines, which stand above its
line in the whole text too, and the beginning of the line. -/
theorem exists_lines_above (front : List Char) :
    Exists fun above => Exists fun line =>
      above.length = front.count '\n' ∧ lastLineStart front + line.length = front.length ∧
        '\n' ∉ line ∧ forall back, lines (front ++ back) = above ++ lines (line ++ back) := by
  rcases lineEnd_cases front with alone | ⟨above, line, same, alone⟩
  · refine ⟨[], front, (List.count_eq_zero.mpr alone).symm, ?_, alone, fun back => rfl⟩
    rw [lastLineStart_of_not_mem alone, Nat.zero_add]
  · refine ⟨lines above, line, ?_, ?_, alone, ?_⟩
    · rw [length_lines, same, List.count_append, List.count_cons_self,
        List.count_eq_zero.mpr alone]
    · rw [same, lastLineStart_append_lineEnd above alone, List.length_append, List.length_cons]
      omega
    · intro back
      rw [same, List.append_assoc, List.cons_append, lines_append_lineEnd]

/-- The place of a character of a text is where the lines of the text have it. -/
theorem locate_of_getElem? {position : Nat} (found : text[position]? = some character)
    (different : character ≠ '\n') :
    Exists fun row : Nat => Exists fun column : Nat => Exists fun content =>
      (locate text position).line = row + 1 ∧ (locate text position).column = column + 1 ∧
        (lines text)[row]? = some content ∧ content[column]? = some character := by
  rcases List.getElem?_eq_some_iff.mp found with ⟨inside, same⟩
  have front : before text position = text.take position := if_pos (Int.natCast_nonneg position)
  have cut : text = text.take position ++ character :: text.drop (position + 1) := by
    rw [← same, ← List.drop_eq_getElem_cons inside, List.take_append_drop]
  rcases exists_lines_above (text.take position) with ⟨above, line, whole, begun, alone, onward⟩
  have split := onward (character :: text.drop (position + 1))
  rw [← cut] at split
  have shown : (lines text)[above.length]? = some (line ++ character ::
      (text.drop (position + 1)).takeWhile (fun character => character != '\n')) := by
    rw [split, List.getElem?_append_right (Nat.le_refl _), Nat.sub_self, getElem?_zero_lines,
      takeWhile_append_of_not_mem alone, takeWhile_cons_of_ne different]
  rw [List.length_take_of_le (Nat.le_of_lt inside)] at begun
  refine ⟨above.length, line.length, _, ?_, ?_, shown, ?_⟩
  · rw [locate, front, whole]
  · rw [locate, front]
    dsimp only
    omega
  · rw [List.getElem?_append_right (Nat.le_refl _), Nat.sub_self]
    rfl

end Text
end LoopTape
