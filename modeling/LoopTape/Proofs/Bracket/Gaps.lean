import LoopTape.Proofs.Bracket.Relocation
import LoopTape.Proofs.Bracket.Stripping

namespace LoopTape
namespace Bracket

/-!
# Gaps

Characters that are put into a text make a gap in it.  Positions behind the gap are
further back by its width, and when the gap is closed again, all positions in it become
the one where it was.

Characters that are not brackets weigh nothing, so a gap made of them keeps the heights
of the text on both sides and has one height all through.  Brackets belong together
around it as they did without it, wherever it is: the gap may be inside any number of
loops, in front of a bracket or behind it.  If it is made of comments, the text with the
gap is found again in the text without it.
-/

/-- Where a position of a text is found when there is a gap in the text. -/
def aroundGap (place width position : Nat) : Nat :=
  if position < place then position else position + width

/-- Where a position of a text with a gap is found when the gap is closed. -/
def closedUp (place width position : Nat) : Nat :=
  min position place + (position - (place + width))

/-! ## Positions -/

variable {place width position first second : Nat}

theorem aroundGap_front (inFront : position < place) :
    aroundGap place width position = position := if_pos inFront

theorem aroundGap_behind (behind : place ≤ position) :
    aroundGap place width position = position + width := if_neg (Nat.not_lt_of_le behind)

theorem closedUp_front (inFront : position ≤ place) : closedUp place width position = position := by
  rw [closedUp, Nat.min_eq_left inFront]
  omega

theorem closedUp_inside (begun : place ≤ position) (within : position ≤ place + width) :
    closedUp place width position = place := by
  rw [closedUp, Nat.min_eq_right begun, Nat.sub_eq_zero_of_le within]
  rfl

theorem closedUp_behind (behind : place ≤ position) :
    closedUp place width (position + width) = position := by
  rw [closedUp]
  omega

theorem closedUp_aroundGap (place width position : Nat) :
    closedUp place width (aroundGap place width position) = position := by
  by_cases inFront : position < place
  · rw [aroundGap_front inFront, closedUp_front (Nat.le_of_lt inFront)]
  · have behind := Nat.le_of_not_lt inFront
    rw [aroundGap_behind behind, closedUp_behind behind]

theorem aroundGap_closedUp (outside : position < place ∨ place + width ≤ position) :
    aroundGap place width (closedUp place width position) = position := by
  rcases outside with inFront | behind
  · rw [closedUp_front (Nat.le_of_lt inFront), aroundGap_front inFront]
  · rcases Nat.exists_eq_add_of_le behind with ⟨more, rfl⟩
    have same : place + width + more = place + more + width := Nat.add_right_comm _ _ _
    rw [same, closedUp_behind (Nat.le_add_right _ _), aroundGap_behind (Nat.le_add_right _ _)]

theorem aroundGap_lt_iff :
    aroundGap place width first < aroundGap place width second ↔ first < second := by
  simp only [aroundGap]
  split <;> split <;> omega

theorem closedUp_mono (ordered : first ≤ second) :
    closedUp place width first ≤ closedUp place width second := by
  simp only [closedUp]
  omega

/-- Behind a position comes the next, around the gap as well. -/
theorem closedUp_aroundGap_succ (place width position : Nat) :
    closedUp place width (aroundGap place width position + 1) = position + 1 := by
  by_cases inFront : position < place
  · rw [aroundGap_front inFront, closedUp_front inFront]
  · have behind := Nat.le_of_not_lt inFront
    rw [aroundGap_behind behind, Nat.add_right_comm, closedUp_behind (Nat.le_succ_of_le behind)]

/-! ## Texts with a gap -/

variable {front gap back : List Char} {character : Char}

theorem getElem?_aroundGap (front gap back : List Char) (position : Nat) :
    (front ++ gap ++ back)[aroundGap front.length gap.length position]? =
      (front ++ back)[position]? := by
  by_cases inFront : position < front.length
  · rw [aroundGap_front inFront, List.append_assoc, List.getElem?_append_left inFront,
      List.getElem?_append_left inFront]
  · have behind := Nat.le_of_not_lt inFront
    rw [aroundGap_behind behind, List.getElem?_append_right behind, List.getElem?_append_right]
    · rw [List.length_append]
      congr 1
      omega
    · rw [List.length_append]
      omega

theorem getElem?_gap (front gap back : List Char) {index : Nat} (inside : index < gap.length) :
    (front ++ gap ++ back)[front.length + index]? = gap[index]? := by
  rw [List.append_assoc, List.getElem?_append_right (Nat.le_add_right _ index),
    Nat.add_sub_cancel_left, List.getElem?_append_left inside]

theorem mem_gap_of_getElem? (begun : front.length ≤ position)
    (within : position < front.length + gap.length)
    (found : (front ++ gap ++ back)[position]? = some character) : character ∈ gap := by
  rw [List.append_assoc, List.getElem?_append_right begun, List.getElem?_append_left (by omega)]
    at found
  exact List.mem_of_getElem? found

/-- What is not in the gap was there without it. -/
theorem exists_aroundGap_of_not_mem (missing : character ∉ gap)
    (found : (front ++ gap ++ back)[position]? = some character) :
    Exists fun origin => position = aroundGap front.length gap.length origin ∧
      (front ++ back)[origin]? = some character := by
  have outside : position < front.length ∨ front.length + gap.length ≤ position := by
    apply Decidable.byContradiction
    intro inside
    rw [not_or, Nat.not_lt, Nat.not_le] at inside
    exact missing (mem_gap_of_getElem? inside.1 inside.2 found)
  refine ⟨_, (aroundGap_closedUp outside).symm, ?_⟩
  rwa [← getElem?_aroundGap front gap back, aroundGap_closedUp outside]

/-- Gaps of one width leave everything else where it is. -/
theorem getElem?_outside {other : List Char} (same : gap.length = other.length)
    (outside : position < front.length ∨ front.length + gap.length ≤ position) :
    (front ++ gap ++ back)[position]? = (front ++ other ++ back)[position]? := by
  rw [← aroundGap_closedUp outside, getElem?_aroundGap, same, getElem?_aroundGap]

/-! ## Brackets around a gap -/

/-- None of the characters is a bracket. -/
def Weightless (gap : List Char) : Prop :=
  forall character, character ∈ gap -> opening character = 0

theorem Weightless.balance_eq_zero (weightless : Weightless gap) : balance gap = 0 := by
  induction gap with
  | nil => rfl
  | cons character rest inductionHypothesis =>
      rw [balance_cons, weightless character List.mem_cons_self, Int.zero_add]
      apply inductionHypothesis
      intro other member
      exact weightless other (List.mem_cons_of_mem character member)

theorem Weightless.start_not_mem (weightless : Weightless gap) : '[' ∉ gap := by
  intro member
  exact absurd (weightless '[' member) (by decide)

theorem Weightless.stop_not_mem (weightless : Weightless gap) : ']' ∉ gap := by
  intro member
  exact absurd (weightless ']' member) (by decide)

theorem Weightless.heightAt_eq_zero (weightless : Weightless gap) (position : Nat) :
    heightAt gap position = 0 := by
  have part : Weightless (gap.take position) :=
    fun character member => weightless character (List.mem_of_mem_take member)
  exact part.balance_eq_zero

/-- The height at a position is that of the position when the gap is closed. -/
theorem Weightless.heightAt_closedUp (weightless : Weightless gap) (front back : List Char)
    (position : Nat) :
    heightAt (front ++ gap ++ back) position =
      heightAt (front ++ back) (closedUp front.length gap.length position) := by
  rcases Nat.le_total position front.length with inFront | begun
  · rw [closedUp_front inFront, List.append_assoc, heightAt_append_left inFront,
      heightAt_append_left inFront]
  · rcases Nat.le_total position (front.length + gap.length) with within | behind
    · rcases Nat.exists_eq_add_of_le begun with ⟨inside, rfl⟩
      rw [closedUp_inside begun within, List.append_assoc, heightAt_append_right,
        heightAt_append_left (Nat.le_of_add_le_add_left within), weightless.heightAt_eq_zero,
        heightAt_append_left (Nat.le_refl _), heightAt_length, Int.add_zero]
    · rcases Nat.exists_eq_add_of_le behind with ⟨more, rfl⟩
      have closed : closedUp front.length gap.length (front.length + gap.length + more) =
          front.length + more := by
        rw [Nat.add_right_comm]
        exact closedUp_behind (Nat.le_add_right _ _)
      rw [closed, heightAt_append_right, ← List.length_append, heightAt_append_right,
        balance_append, weightless.balance_eq_zero, Int.add_zero]

/-- Brackets belong together around a gap as they do without it. -/
theorem Weightless.encloses_aroundGap_iff (weightless : Weightless gap) {start stop : Nat} :
    Encloses (front ++ gap ++ back) (aroundGap front.length gap.length start)
        (aroundGap front.length gap.length stop) ↔
      Encloses (front ++ back) start stop := by
  have height := weightless.heightAt_closedUp front back
  have total : (front ++ gap ++ back).length = (front ++ back).length + gap.length := by
    rw [List.length_append, List.length_append, List.length_append, Nat.add_right_comm]
  have enough : front.length ≤ (front ++ back).length := by
    rw [List.length_append]
    exact Nat.le_add_right _ _
  constructor
  · intro encloses
    have level := encloses.level
    rw [height, height, closedUp_aroundGap_succ, closedUp_aroundGap] at level
    refine ⟨aroundGap_lt_iff.mp encloses.ordered, ?_, level, ?_⟩
    · have inside := encloses.inside
      rw [total] at inside
      simp only [aroundGap] at inside
      split at inside <;> omega
    · intro middle later within
      have above := encloses.above (aroundGap front.length gap.length middle)
        (aroundGap_lt_iff.mpr later)
        (Nat.le_of_not_lt (fun beyond => Nat.not_lt_of_le within (aroundGap_lt_iff.mp beyond)))
      rwa [height, height, closedUp_aroundGap, closedUp_aroundGap] at above
  · intro encloses
    refine ⟨aroundGap_lt_iff.mpr encloses.ordered, ?_, ?_, ?_⟩
    · have inside := encloses.inside
      rw [total]
      simp only [aroundGap]
      split <;> omega
    · rw [height, height, closedUp_aroundGap_succ, closedUp_aroundGap]
      exact encloses.level
    · intro middle later within
      rw [height, height, closedUp_aroundGap]
      apply encloses.above
      · have next := @closedUp_mono front.length gap.length _ _ (Nat.succ_le_of_lt later)
        rwa [closedUp_aroundGap_succ] at next
      · rw [← closedUp_aroundGap front.length gap.length stop]
        exact closedUp_mono within

theorem encloses_congr {text other : List Char} (length : text.length = other.length)
    (height : forall position, heightAt text position = heightAt other position)
    (start stop : Nat) :
    Encloses text start stop ↔ Encloses other start stop := by
  constructor
  · intro encloses
    refine ⟨encloses.ordered, length ▸ encloses.inside, ?_, ?_⟩
    · rw [← height, ← height, encloses.level]
    · intro middle later within
      rw [← height, ← height]
      exact encloses.above middle later within
  · intro encloses
    refine ⟨encloses.ordered, length ▸ encloses.inside, ?_, ?_⟩
    · rw [height, height, encloses.level]
    · intro middle later within
      rw [height, height]
      exact encloses.above middle later within

/-- It does not matter what a gap is made of if none of it is a bracket. -/
theorem Weightless.encloses_iff {other : List Char} (weightless : Weightless gap)
    (also : Weightless other) (same : gap.length = other.length) (start stop : Nat) :
    Encloses (front ++ gap ++ back) start stop ↔ Encloses (front ++ other ++ back) start stop := by
  apply encloses_congr
  · simp only [List.length_append, same]
  · intro position
    rw [weightless.heightAt_closedUp, also.heightAt_closedUp, same]

/-- A text with comments put into it is found again in the text without them. -/
theorem relocation_gap (comments : forall character, character ∈ gap ->
      Instruction.isCode character = false) (front back : List Char) :
    Relocation (front ++ gap ++ back) (front ++ back) (closedUp front.length gap.length) := by
  have weightless : Weightless gap :=
    fun character member => opening_of_comment (comments character member)
  have kept : forall {position : Nat} {character : Char},
      (front ++ gap ++ back)[position]? = some character -> character ∉ gap ->
        (front ++ back)[closedUp front.length gap.length position]? = some character ∧
          closedUp front.length gap.length (position + 1) =
            closedUp front.length gap.length position + 1 := by
    intro position character found missing
    rcases exists_aroundGap_of_not_mem missing found with ⟨origin, rfl, there⟩
    rw [closedUp_aroundGap_succ, closedUp_aroundGap]
    exact ⟨there, rfl⟩
  constructor
  · intro position character found code
    apply kept found
    intro member
    rw [comments character member] at code
    cases code
  · intro position character found _
    by_cases inside : front.length ≤ position ∧ position < front.length + gap.length
    · refine Or.inl ?_
      rw [closedUp_inside (Nat.le_succ_of_le inside.1) inside.2,
        closedUp_inside inside.1 (Nat.le_of_lt inside.2)]
    · have outside : position < front.length ∨ front.length + gap.length ≤ position := by omega
      have around := aroundGap_closedUp outside
      refine Or.inr ⟨?_, ?_⟩
      · rwa [← getElem?_aroundGap front gap back, around]
      · have next := closedUp_aroundGap_succ front.length gap.length
          (closedUp front.length gap.length position)
        rwa [around] at next
  · intro start stop encloses
    rcases exists_aroundGap_of_not_mem weightless.start_not_mem encloses.opens with ⟨_, rfl, _⟩
    rcases exists_aroundGap_of_not_mem weightless.stop_not_mem encloses.closes with ⟨_, rfl, _⟩
    rw [closedUp_aroundGap, closedUp_aroundGap]
    exact weightless.encloses_aroundGap_iff.mp encloses
  · intro start stop opens encloses
    rcases exists_aroundGap_of_not_mem weightless.start_not_mem opens with ⟨_, rfl, _⟩
    rw [closedUp_aroundGap] at encloses
    exact ⟨_, (closedUp_aroundGap _ _ _).symm, weightless.encloses_aroundGap_iff.mpr encloses⟩
  · intro start stop closes encloses
    rcases exists_aroundGap_of_not_mem weightless.stop_not_mem closes with ⟨_, rfl, _⟩
    rw [closedUp_aroundGap] at encloses
    exact ⟨_, (closedUp_aroundGap _ _ _).symm, weightless.encloses_aroundGap_iff.mpr encloses⟩

end Bracket
end LoopTape
