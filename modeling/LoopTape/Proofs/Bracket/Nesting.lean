import LoopTape.Bracket.Body
import LoopTape.Proofs.Bracket.Settling

namespace LoopTape
namespace Bracket

/-!
# Nested texts and the bodies of loops

The body of a loop is a text in which all brackets belong together: its height
never goes below zero and ends at zero.  Such a text is called nested here.  A
text is terminated when each loop that it opens is closed before its end, and
this is a condition on what is behind a position, not on what is in front of it:
no suffix has more opening brackets than closing ones.

Collecting a body counts the loops open inside it, and the scan upward keeps a
level.  The level is always one more than the count, since the loop itself is
open as well, so the collection ends exactly where the scan settles.
-/

/-- Every closing bracket of the text ends a loop of it, and no loop is left open. -/
structure Nested (text : List Char) : Prop where
  level : balance text = 0
  nonneg : forall position, 0 ≤ heightAt text position

/-- No suffix has more opening brackets than closing ones. -/
def Terminated (text : List Char) : Prop := forall position, balance (text.drop position) ≤ 0

namespace Nested

theorem nil : Nested [] :=
  ⟨rfl, fun position => by rw [heightAt, List.take_nil]; exact Int.le_refl 0⟩

theorem cons {character : Char} {rest : List Char} (weightless : opening character = 0)
    (nested : Nested rest) : Nested (character :: rest) := by
  refine ⟨?_, ?_⟩
  · rw [balance_cons, weightless, nested.level, Int.add_zero]
  · intro position
    cases position with
    | zero => exact Int.le_refl 0
    | succ position =>
        rw [heightAt_cons_succ, weightless, Int.zero_add]
        exact nested.nonneg position

/-- Past a loop the height goes on from where it was in front of it. -/
theorem heightAt_past_loop {body : List Char} (nested : Nested body) (rest : List Char)
    (position : Nat) :
    heightAt ('[' :: (body ++ ']' :: rest)) (body.length + 2 + position) = heightAt rest position := by
  rw [show body.length + 2 + position = body.length + (position + 1) + 1 by omega,
    heightAt_cons_succ, heightAt_append_right, heightAt_cons_succ, nested.level]
  rw [show opening '[' = 1 from rfl, show opening ']' = -1 from rfl]
  omega

/-- Inside a loop the height is one more than it is in the body alone. -/
theorem heightAt_inside_loop (body rest : List Char) {position : Nat}
    (within : position ≤ body.length) :
    heightAt ('[' :: (body ++ ']' :: rest)) (position + 1) = 1 + heightAt body position := by
  rw [heightAt_cons_succ, heightAt_append_left within]
  rfl

theorem loop {body rest : List Char} (inner : Nested body) (nested : Nested rest) :
    Nested ('[' :: (body ++ ']' :: rest)) := by
  refine ⟨?_, ?_⟩
  · rw [balance_cons, balance_append, balance_cons, inner.level, nested.level]
    rfl
  · intro position
    cases position with
    | zero => exact Int.le_refl 0
    | succ position =>
        by_cases within : position ≤ body.length
        · rw [heightAt_inside_loop body rest within]
          have above := inner.nonneg position
          omega
        · rw [show position + 1 = body.length + 2 + (position - body.length - 1) by omega,
            inner.heightAt_past_loop]
          exact nested.nonneg _

end Nested

namespace Terminated

theorem nil : Terminated [] := fun position => by
  rw [List.drop_nil]
  exact Int.le_refl 0

theorem cons {character : Char} {rest : List Char} (opensNothing : opening character ≤ 0)
    (terminated : Terminated rest) : Terminated (character :: rest) := by
  intro position
  cases position with
  | zero =>
      have whole := terminated 0
      rw [List.drop_zero] at whole ⊢
      rw [balance_cons]
      omega
  | succ position =>
      rw [List.drop_succ_cons]
      exact terminated position

theorem loop {body rest : List Char} (nested : Nested body) (terminated : Terminated rest) :
    Terminated ('[' :: (body ++ ']' :: rest)) := by
  have whole : balance ('[' :: (body ++ ']' :: rest)) = balance rest := by
    have past := nested.heightAt_past_loop rest rest.length
    rw [heightAt_length] at past
    rw [← past, ← heightAt_length]
    congr 1
    simp only [List.length_cons, List.length_append]
    omega
  have outside := terminated 0
  rw [List.drop_zero] at outside
  intro position
  rw [balance_drop, whole]
  by_cases inside : position ≤ body.length + 1
  · cases position with
    | zero =>
        rw [heightAt_zero]
        omega
    | succ position =>
        rw [Nested.heightAt_inside_loop body rest (Nat.le_of_succ_le_succ inside)]
        have above := nested.nonneg position
        omega
  · have behind := terminated (position - (body.length + 2))
    rw [balance_drop] at behind
    rw [show position = body.length + 2 + (position - (body.length + 2)) by omega,
      nested.heightAt_past_loop]
    exact behind

theorem append {front back : List Char} (first : Terminated front) (second : Terminated back) :
    Terminated (front ++ back) := by
  intro position
  rw [List.drop_append, balance_append]
  have frontal := first position
  have behind := second (position - front.length)
  omega

end Terminated

/-! ## Collecting a body -/

theorem collectFrom_start (depth : Nat) (collected rest : List Char) :
    collectFrom depth collected ('[' :: rest) = collectFrom (depth + 1) ('[' :: collected) rest :=
  rfl

theorem collectFrom_stop_zero (collected rest : List Char) :
    collectFrom 0 collected (']' :: rest) = ⟨collected.reverse, true⟩ :=
  rfl

theorem collectFrom_stop_succ (depth : Nat) (collected rest : List Char) :
    collectFrom (depth + 1) collected (']' :: rest) = collectFrom depth (']' :: collected) rest :=
  rfl

theorem collectFrom_other {character : Char} (notStart : character ≠ '[')
    (notStop : character ≠ ']') (depth : Nat) (collected rest : List Char) :
    collectFrom depth collected (character :: rest) =
      collectFrom depth (character :: collected) rest := by
  rw [collectFrom.eq_def depth collected (character :: rest)]
  dsimp only
  split
  · rename_i reads
    exact absurd ((Instruction.ofChar?_eq_some_iff _ _).mp reads) notStart
  · rename_i reads
    exact absurd ((Instruction.ofChar?_eq_some_iff _ _).mp reads) notStop
  · rfl

/-- A collection ends where a walk settles that begins one level higher than
the number of loops open inside the body. -/
theorem collectFrom_eq (depth : Nat) (collected rest : List Char) :
    collectFrom depth collected rest =
      match settleFrom opening ((depth : Int) + 1) 0 rest with
      | some count => ⟨collected.reverse ++ rest.take count, true⟩
      | none => ⟨collected.reverse ++ rest, false⟩ := by
  induction rest generalizing depth collected with
  | nil => simp only [collectFrom, settleFrom, List.append_nil]
  | cons character rest inductionHypothesis =>
      have continues : forall openLoops : Nat,
          collectFrom openLoops (character :: collected) rest =
            match settleFrom opening ((openLoops : Int) + 1) 1 rest with
            | some count => ⟨collected.reverse ++ (character :: rest).take count, true⟩
            | none => ⟨collected.reverse ++ character :: rest, false⟩ := by
        intro openLoops
        rw [inductionHypothesis, settleFrom_eq_map _ _ 1]
        cases settleFrom opening ((openLoops : Int) + 1) 0 rest with
        | none =>
            simp only [Option.map_none, List.reverse_cons, List.append_assoc,
              List.singleton_append]
        | some count =>
            simp only [Option.map_some, List.reverse_cons, List.append_assoc,
              List.singleton_append, Nat.add_comm 1 count, List.take_succ_cons]
      rw [settleFrom]
      rcases opening_cases character with ⟨same, _, weight⟩ | ⟨same, _, weight⟩ |
        ⟨notStart, notStop, weight⟩
      · rw [weight, if_neg (by omega), same, collectFrom_start, ← same, continues]
        rfl
      · rw [weight]
        cases depth with
        | zero =>
            rw [if_pos (by omega), same, collectFrom_stop_zero]
            simp only [List.take_zero, List.append_nil]
        | succ depth =>
            rw [if_neg (by omega), same, collectFrom_stop_succ, ← same, continues,
              show ((depth + 1 : Nat) : Int) + 1 + -1 = (depth : Int) + 1 by omega]
      · rw [weight, if_neg (by omega), collectFrom_other notStart notStop, continues, Int.add_zero]

theorem climb_opening (text : List Char) (count : Nat) :
    climb opening text count = heightAt text count :=
  rfl

/-- A nested text is collected up to the closing bracket behind it. -/
theorem collect_append {inner : List Char} (nested : Nested inner) (after : List Char) :
    collect (inner ++ ']' :: after) = ⟨inner, true⟩ := by
  have settles : settleFrom opening (((0 : Nat) : Int) + 1) 0 (inner ++ ']' :: after) =
      some inner.length := by
    apply (settleFrom_eq_some_iff _ _ _ _ _).mpr
    refine ⟨inner.length, (Nat.zero_add _).symm, ?_, ?_, ?_⟩
    · rw [List.length_append, List.length_cons]
      omega
    · rw [climb_opening, heightAt_append_right, nested.level]
      rfl
    · intro fewer less
      rw [climb_opening, heightAt_append_left (by omega)]
      have above := nested.nonneg (fewer + 1)
      omega
  rw [collect, collectFrom_eq, settles]
  simp only [List.reverse_nil, List.nil_append, List.take_left]

/-- Until a walk that begins one level up settles, it stays above the level below. -/
theorem nonneg_of_ne {text : List Char} {stop : Nat}
    (away : forall fewer, fewer < stop -> 1 + climb opening text (fewer + 1) ≠ 0) :
    forall position, position ≤ stop -> 0 ≤ heightAt text position := by
  intro position within
  have begins : -1 < heightAt text 0 := by
    rw [heightAt_zero]
    omega
  have above : -1 < heightAt text position := by
    refine heightAt_above_of_ne begins ?_ position (Nat.zero_le _) within
    intro middle later bound
    have apart := away (middle - 1) (by omega)
    rw [climb_opening, Nat.sub_add_cancel (by omega)] at apart
    omega
  omega

/-- What is collected up to a closing bracket is nested. -/
theorem nested_of_collect_closed {rest : List Char} (closed : (collect rest).closed = true) :
    Nested (collect rest).inner ∧
      Exists fun after => rest = (collect rest).inner ++ ']' :: after := by
  rw [collect, collectFrom_eq] at closed ⊢
  cases settles : settleFrom opening (((0 : Nat) : Int) + 1) 0 rest with
  | none =>
      rw [settles] at closed
      cases closed
  | some stop =>
      rcases (settleFrom_eq_some_iff _ _ _ _ _).mp settles with
        ⟨count, reached, within, level, before⟩
      rw [Nat.zero_add] at reached
      rw [reached]
      dsimp only [List.reverse_nil, List.nil_append]
      have above := nonneg_of_ne before
      have falls := heightAt_succ (List.getElem?_eq_getElem within)
      rw [climb_opening, falls] at level
      have last := above count (Nat.le_refl count)
      rcases opening_cases rest[count] with ⟨_, _, weight⟩ | ⟨closes, _, weight⟩ | ⟨_, _, weight⟩
      · omega
      · refine ⟨⟨?_, ?_⟩, rest.drop (count + 1), ?_⟩
        · have flat : heightAt rest count = 0 := by omega
          exact flat
        · intro position
          by_cases inner : position ≤ count
          · rw [heightAt_take inner]
            exact above position inner
          · rw [heightAt_of_length_le (by rw [List.length_take]; omega)]
            exact last
        · rw [← closes, List.getElem_cons_drop, List.take_append_drop]
      · omega

/-- A collection is not ended exactly when the text never falls below its first height. -/
theorem collect_closed_eq_false_iff (rest : List Char) :
    (collect rest).closed = false ↔ forall position, 0 ≤ heightAt rest position := by
  have settles := settleFrom_eq_none_iff opening (((0 : Nat) : Int) + 1) 0 rest
  rw [collect, collectFrom_eq]
  constructor
  · intro unclosed position
    cases settled : settleFrom opening (((0 : Nat) : Int) + 1) 0 rest with
    | some stop =>
        rw [settled] at unclosed
        cases unclosed
    | none =>
        have above := nonneg_of_ne (settles.mp settled)
        by_cases inside : position ≤ rest.length
        · exact above position inside
        · rw [heightAt_of_length_le (by omega), ← heightAt_length]
          exact above rest.length (Nat.le_refl _)
  · intro nonneg
    rw [settles.mpr]
    intro count _
    have above := nonneg (count + 1)
    rw [climb_opening]
    omega

end Bracket
end LoopTape
