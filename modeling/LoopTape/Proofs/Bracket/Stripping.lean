import LoopTape.Proofs.Bracket.Relocation

namespace LoopTape
namespace Bracket

/-!
# Brackets without the comments

When the comments of a text are removed, an instruction comes to stand at the
number of instructions in front of it.  This number is defined for every
position.  Along the text it stays the same at a comment and rises by one at an
instruction, so it takes each value up to the number of all instructions.

Comments weigh nothing, and the height at a position is the height at its place.
Every height met between two places was therefore met between the two positions,
and brackets belong together without the comments exactly when they did so with
them.
-/

/-- The number of instructions in front of a position. -/
def codeBefore (text : List Char) (position : Nat) : Nat :=
  (text.take position).countP Instruction.isCode

/-! ## Counting instructions -/

variable {text : List Char} {position : Nat} {character : Char}

theorem codeBefore_succ_of_code (found : text[position]? = some character)
    (code : Instruction.isCode character = true) :
    codeBefore text (position + 1) = codeBefore text position + 1 := by
  rw [codeBefore, List.take_add_one, found, List.countP_append, Option.toList_some,
    List.countP_singleton, if_pos code, codeBefore]

theorem codeBefore_succ_of_comment (found : text[position]? = some character)
    (comment : Instruction.isCode character = false) :
    codeBefore text (position + 1) = codeBefore text position := by
  rw [codeBefore, List.take_add_one, found, List.countP_append, Option.toList_some,
    List.countP_singleton, comment, if_neg Bool.false_ne_true, Nat.add_zero, codeBefore]

theorem codeBefore_mono {earlier later : Nat} (ordered : earlier ≤ later) (text : List Char) :
    codeBefore text earlier ≤ codeBefore text later := by
  have front : (text.take later).take earlier = text.take earlier := by
    rw [List.take_take, Nat.min_eq_left ordered]
  rw [codeBefore, ← front]
  exact (List.take_sublist earlier _).countP_le

theorem lt_of_codeBefore_lt {first second : Nat}
    (fewer : codeBefore text first < codeBefore text second) : first < second := by
  apply Nat.lt_of_not_le
  intro ordered
  exact Nat.not_lt_of_le (codeBefore_mono ordered text) fewer

theorem codeBefore_of_length_le (outside : text.length ≤ position) :
    codeBefore text position = (Instruction.codeOnly text).length := by
  rw [codeBefore, List.take_of_length_le outside, List.countP_eq_length_filter,
    Instruction.codeOnly]

theorem codeBefore_le_length (text : List Char) (position : Nat) :
    codeBefore text position ≤ (Instruction.codeOnly text).length := by
  rw [← codeBefore_of_length_le (Nat.le_refl text.length), codeBefore, codeBefore,
    List.take_length]
  exact (List.take_sublist position text).countP_le

/-- Every number below that of the instructions in front of a position is the
place of one of them. -/
theorem exists_code_of_lt_codeBefore {place stop : Nat} (within : place < codeBefore text stop) :
    Exists fun position => Exists fun character => position < stop ∧
      text[position]? = some character ∧ Instruction.isCode character = true ∧
      codeBefore text position = place := by
  induction stop with
  | zero => exact absurd within (Nat.not_lt_zero place)
  | succ stop inductionHypothesis =>
      by_cases before : place < codeBefore text stop
      · rcases inductionHypothesis before with ⟨position, character, earlier, found⟩
        exact ⟨position, character, Nat.lt_succ_of_lt earlier, found⟩
      · by_cases inside : stop < text.length
        · have found := List.getElem?_eq_getElem inside
          cases code : Instruction.isCode text[stop] with
          | true =>
              rw [codeBefore_succ_of_code found code] at within
              exact ⟨stop, _, Nat.lt_succ_self stop, found, code, by omega⟩
          | false =>
              rw [codeBefore_succ_of_comment found code] at within
              exact absurd within before
        · have last := codeBefore_of_length_le (Nat.le_of_not_lt inside)
          have total := codeBefore_le_length text (stop + 1)
          omega

theorem exists_codeBefore_eq {count stop : Nat} (within : count ≤ codeBefore text stop) :
    Exists fun position => position ≤ stop ∧ codeBefore text position = count := by
  rcases Nat.lt_or_eq_of_le within with less | same
  · rcases exists_code_of_lt_codeBefore less with ⟨position, _, earlier, _, _, reached⟩
    exact ⟨position, Nat.le_of_lt earlier, reached⟩
  · exact ⟨stop, Nat.le_refl stop, same.symm⟩

/-! ## Heights without the comments -/

theorem opening_of_comment (comment : Instruction.isCode character = false) :
    opening character = 0 := by
  rcases opening_cases character with ⟨_, reads, _⟩ | ⟨_, reads, _⟩ | ⟨_, _, weight⟩
  · rw [Instruction.isCode, reads] at comment
    cases comment
  · rw [Instruction.isCode, reads] at comment
    cases comment
  · exact weight

theorem balance_codeOnly (text : List Char) :
    balance (Instruction.codeOnly text) = balance text := by
  induction text with
  | nil => rfl
  | cons character rest inductionHypothesis =>
      cases code : Instruction.isCode character with
      | true =>
          rw [Instruction.codeOnly_cons_of_code code, balance_cons, inductionHypothesis,
            balance_cons]
      | false =>
          rw [Instruction.codeOnly_cons_of_comment code, inductionHypothesis, balance_cons,
            opening_of_comment code, Int.zero_add]

theorem length_codeOnly_take (text : List Char) (position : Nat) :
    (Instruction.codeOnly (text.take position)).length = codeBefore text position := by
  rw [codeBefore, List.countP_eq_length_filter, Instruction.codeOnly]

theorem take_codeOnly (text : List Char) (position : Nat) :
    (Instruction.codeOnly text).take (codeBefore text position) =
      Instruction.codeOnly (text.take position) := by
  have split := Instruction.codeOnly_append (text.take position) (text.drop position)
  rw [List.take_append_drop] at split
  rw [split]
  exact List.take_left' (length_codeOnly_take text position)

theorem heightAt_codeOnly (text : List Char) (position : Nat) :
    heightAt (Instruction.codeOnly text) (codeBefore text position) = heightAt text position := by
  rw [heightAt, take_codeOnly, balance_codeOnly, heightAt]

theorem getElem?_codeOnly (found : text[position]? = some character)
    (code : Instruction.isCode character = true) :
    (Instruction.codeOnly text)[codeBefore text position]? = some character := by
  rcases List.getElem?_eq_some_iff.mp found with ⟨inside, same⟩
  have split := Instruction.codeOnly_append (text.take position) (text.drop position)
  rw [List.take_append_drop, List.drop_eq_getElem_cons inside, same] at split
  rw [split, ← length_codeOnly_take, List.getElem?_append_right (Nat.le_refl _), Nat.sub_self,
    Instruction.codeOnly_cons_of_code code, List.getElem?_cons_zero]

/-! ## Brackets that belong together -/

theorem encloses_codeOnly_iff {start stop : Nat} (opens : text[start]? = some '[')
    (closes : text[stop]? = some ']') :
    Encloses (Instruction.codeOnly text) (codeBefore text start) (codeBefore text stop) ↔
      Encloses text start stop := by
  have pastStart := codeBefore_succ_of_code opens rfl
  have pastStop := codeBefore_succ_of_code closes rfl
  have levels : heightAt (Instruction.codeOnly text) (codeBefore text stop + 1) =
      heightAt text (stop + 1) := by
    rw [← pastStop, heightAt_codeOnly]
  constructor
  · intro encloses
    refine ⟨lt_of_codeBefore_lt encloses.ordered, (List.getElem?_eq_some_iff.mp closes).1, ?_, ?_⟩
    · rw [← levels, encloses.level, heightAt_codeOnly]
    · intro middle later within
      have after : codeBefore text (start + 1) ≤ codeBefore text middle :=
        codeBefore_mono later text
      have before := codeBefore_mono within text
      have above := encloses.above (codeBefore text middle) (by omega) before
      rwa [heightAt_codeOnly, heightAt_codeOnly] at above
  · intro encloses
    have ordered : codeBefore text (start + 1) ≤ codeBefore text stop :=
      codeBefore_mono encloses.ordered text
    refine ⟨by omega, (List.getElem?_eq_some_iff.mp (getElem?_codeOnly closes rfl)).1, ?_, ?_⟩
    · rw [levels, encloses.level, heightAt_codeOnly]
    · intro middle later within
      rcases exists_codeBefore_eq within with ⟨origin, before, same⟩
      rw [← same] at later ⊢
      rw [heightAt_codeOnly, heightAt_codeOnly]
      exact encloses.above origin (lt_of_codeBefore_lt later) before

/-- Every character that is left when the comments are removed was there before. -/
theorem exists_code_of_getElem?_codeOnly {place : Nat}
    (found : (Instruction.codeOnly text)[place]? = some character) :
    Exists fun position => text[position]? = some character ∧ codeBefore text position = place := by
  have inside := (List.getElem?_eq_some_iff.mp found).1
  rw [← codeBefore_of_length_le (Nat.le_refl text.length)] at inside
  rcases exists_code_of_lt_codeBefore inside with ⟨position, other, _, origin, code, reached⟩
  have kept := getElem?_codeOnly origin code
  rw [reached, found] at kept
  exact ⟨position, origin.trans kept.symm, reached⟩

/-- A text is found again in its instructions. -/
theorem relocation_codeOnly (text : List Char) :
    Relocation text (Instruction.codeOnly text) (codeBefore text) where
  code found code := ⟨getElem?_codeOnly found code, codeBefore_succ_of_code found code⟩
  comment found comment := Or.inl (codeBefore_succ_of_comment found comment)
  encloses encloses := (encloses_codeOnly_iff encloses.opens encloses.closes).mpr encloses
  stop opens encloses := by
    rcases exists_code_of_getElem?_codeOnly encloses.closes with ⟨origin, closes, reached⟩
    rw [← reached] at encloses
    exact ⟨origin, reached.symm, (encloses_codeOnly_iff opens closes).mp encloses⟩
  start closes encloses := by
    rcases exists_code_of_getElem?_codeOnly encloses.opens with ⟨origin, opens, reached⟩
    rw [← reached] at encloses
    exact ⟨origin, reached.symm, (encloses_codeOnly_iff opens closes).mp encloses⟩

end Bracket
end LoopTape
