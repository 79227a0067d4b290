import LoopTape.Proofs.Bracket.Partners
import LoopTape.Proofs.Tree.Reading

namespace LoopTape
namespace Tree

/-!
# Which texts can be read

Reading looks at one loop after another and at every nested text again, but
whether it succeeds depends on the numbers of brackets alone: no suffix of the
text may have more opening brackets than closing ones.  When it fails it names
one bracket, and this is the leftmost opening bracket without a partner.  The
loops in front of it are complete, whatever stands behind it.
-/

open LoopTape.Bracket

/-- An opening bracket such that every stretch from it has more opening brackets
than closing ones. -/
def Unclosed (source : List Char) (position : Nat) : Prop :=
  source[position]? = some '[' ∧
    forall last, position ≤ last -> last < source.length ->
      ((source.take (last + 1)).drop position).count ']' <
        ((source.take (last + 1)).drop position).count '['

theorem balance_stretch (source : List Char) {position last : Nat} (ordered : position ≤ last) :
    balance ((source.take (last + 1)).drop position) =
      heightAt source (last + 1) - heightAt source position := by
  rw [balance_drop, heightAt_take (by omega)]
  rfl

/-- Unclosed brackets are those after which the text stays above their height. -/
theorem unclosed_iff (source : List Char) (position : Nat) :
    Unclosed source position ↔
      source[position]? = some '[' ∧
        forall middle, position < middle -> middle ≤ source.length ->
          heightAt source position < heightAt source middle := by
  unfold Unclosed
  constructor
  · rintro ⟨opens, more⟩
    refine ⟨opens, ?_⟩
    intro middle later within
    have counts := more (middle - 1) (by omega) (by omega)
    have stretch := balance_stretch source (show position ≤ middle - 1 by omega)
    rw [balance_eq_count_sub_count, Nat.sub_add_cancel (by omega)] at stretch
    rw [Nat.sub_add_cancel (by omega)] at counts
    omega
  · rintro ⟨opens, above⟩
    refine ⟨opens, ?_⟩
    intro last later within
    have stretch := balance_stretch source later
    have level := above (last + 1) (by omega) (by omega)
    rw [balance_eq_count_sub_count] at stretch
    omega

/-- An opening bracket is unclosed exactly when the table of pairs has no
partner for it. -/
theorem unclosed_iff_closingPartner?_eq_none {source : List Char} {position : Nat}
    (opens : source[position]? = some '[') :
    Unclosed source position ↔ closingPartner? source position = none := by
  have rises : heightAt source (position + 1) = heightAt source position + 1 := heightAt_succ opens
  rw [← loopEnd?_eq_closingPartner? opens, loopEnd?_eq_none_iff, unclosed_iff]
  constructor
  · rintro ⟨_, above⟩ middle later within
    have level := above (middle + 1) (by omega) (by omega)
    omega
  · intro away
    refine ⟨opens, fun middle later within => ?_⟩
    have begins : heightAt source position < heightAt source (position + 1) := by omega
    refine heightAt_above_of_ne begins ?_ middle later within
    intro other after bound
    have apart := away (other - 1) (by omega) (by omega)
    rwa [Nat.sub_add_cancel (by omega)] at apart

theorem terminated_iff_count (source : List Char) :
    Terminated source ↔
      forall place, (source.drop place).count '[' ≤ (source.drop place).count ']' := by
  unfold Terminated
  constructor
  · intro terminated place
    have level := terminated place
    rw [balance_eq_count_sub_count] at level
    omega
  · intro fewer place
    have counts := fewer place
    rw [balance_eq_count_sub_count]
    omega

/-- A terminated text has no unclosed bracket. -/
theorem not_unclosed_of_terminated {source : List Char} (terminated : Terminated source)
    (position : Nat) : ¬ Unclosed source position := by
  intro unclosed
  rcases (unclosed_iff source position).mp unclosed with ⟨opens, above⟩
  have inside : position < source.length := (List.getElem?_eq_some_iff.mp opens).1
  have level := above source.length inside (Nat.le_refl _)
  have behind := terminated position
  rw [balance_drop] at behind
  rw [heightAt_length] at level
  omega

/-- Behind a terminated text an opening bracket after which the height never
falls below is the first unclosed one. -/
theorem leastUnclosed_of_brokenOff {front rest : List Char} (terminated : Terminated front)
    (unclosed : forall place, 0 ≤ heightAt rest place) :
    Unclosed (front ++ '[' :: rest) front.length ∧
      forall earlier, earlier < front.length -> ¬ Unclosed (front ++ '[' :: rest) earlier := by
  constructor
  · apply (unclosed_iff _ _).mpr
    refine ⟨by simp, ?_⟩
    intro middle later _
    have above := unclosed (middle - front.length - 1)
    rw [show middle = front.length + (middle - front.length - 1 + 1) by omega,
      heightAt_append_right, heightAt_cons_succ, heightAt_append_left (Nat.le_refl _),
      heightAt_length,
      show opening '[' = 1 from rfl]
    omega
  · intro earlier before kept
    rcases (unclosed_iff _ _).mp kept with ⟨_, above⟩
    have level := above front.length before (by rw [List.length_append]; omega)
    have behind := terminated earlier
    rw [heightAt_append_left (Nat.le_of_lt before), heightAt_append_left (Nat.le_refl _),
      heightAt_length] at level
    rw [balance_drop] at behind
    omega

/-- A text is terminated and can be read, or it is refused at its leftmost
unclosed bracket. -/
theorem read_terminated_or_blames (source : List Char) :
    (Terminated source ∧ Exists fun tree => read source = .ok tree) ∨
      Exists fun position => read source = .error ⟨position⟩ ∧ Unclosed source position ∧
        forall earlier, earlier < position -> ¬ Unclosed source earlier := by
  cases shape source with
  | written tree canonical same =>
      rw [same]
      exact Or.inl ⟨canonical.terminated, tree, read_text canonical⟩
  | brokenOff tree rest canonical same unclosed =>
      rw [same]
      exact Or.inr ⟨tree.text.length, read_brokenOff canonical unclosed,
        leastUnclosed_of_brokenOff canonical.terminated unclosed⟩

/-- A text can be read exactly when no suffix has more opening brackets than
closing ones, and otherwise the leftmost opening bracket without a partner is
blamed. -/
theorem read_accepts_or_blames_leftmost (source : List Char) :
    ((Exists fun tree => read source = .ok tree) ↔
      forall place, (source.drop place).count '[' ≤ (source.drop place).count ']') ∧
    ((¬ forall place, (source.drop place).count '[' ≤ (source.drop place).count ']') ->
      Exists fun position => read source = .error ⟨position⟩) ∧
    (forall position, read source = .error ⟨position⟩ ↔
      Unclosed source position ∧ forall earlier, earlier < position -> ¬ Unclosed source earlier) ∧
    forall position, source[position]? = some '[' ->
      (Unclosed source position ↔ closingPartner? source position = none) := by
  rw [← terminated_iff_count]
  have partner : forall position, source[position]? = some '[' ->
      (Unclosed source position ↔ closingPartner? source position = none) :=
    fun position opens => unclosed_iff_closingPartner?_eq_none opens
  rcases read_terminated_or_blames source with ⟨terminated, tree, reads⟩ |
    ⟨place, fails, blamed, leftmost⟩
  · refine ⟨⟨fun _ => terminated, fun _ => ⟨tree, reads⟩⟩, ?_, ?_, partner⟩
    · intro notTerminated
      exact absurd terminated notTerminated
    · intro position
      rw [reads]
      constructor
      · intro impossible
        cases impossible
      · rintro ⟨unclosed, _⟩
        exact absurd unclosed (not_unclosed_of_terminated terminated position)
  · refine ⟨⟨?_, ?_⟩, fun _ => ⟨place, fails⟩, ?_, partner⟩
    · rintro ⟨tree, reads⟩
      rw [fails] at reads
      cases reads
    · intro terminated
      exact absurd blamed (not_unclosed_of_terminated terminated place)
    · intro position
      rw [fails]
      constructor
      · intro same
        cases same
        exact ⟨blamed, leftmost⟩
      · rintro ⟨unclosed, first⟩
        have notLater : ¬ place < position := fun later => first place later blamed
        have notEarlier : ¬ position < place := fun earlier => leftmost position earlier unclosed
        rw [show position = place by omega]

theorem blames_leftmost_behind_closed_loops :
    Unclosed [']', '[', ']', '[', '[', '+'] 3 ∧
      (Exists fun position => read [']', '[', ']', '[', '[', '+'] = .error ⟨position⟩) ∧
      read [']', '[', ']', '[', '[', '+'] = .error ⟨3⟩ := by
  rcases read_accepts_or_blames_leftmost [']', '[', ']', '[', '[', '+'] with
    ⟨_, refused, blamed, partner⟩
  have tooMany : ¬ forall place,
      (([']', '[', ']', '[', '[', '+'] : List Char).drop place).count '[' ≤
        (([']', '[', ']', '[', '[', '+'] : List Char).drop place).count ']' := by
    intro fewer
    exact absurd (fewer 3) (by decide)
  have unclosed : Unclosed [']', '[', ']', '[', '[', '+'] 3 := (partner 3 rfl).mpr (by decide)
  refine ⟨unclosed, refused tooMany, (blamed 3).mpr ⟨unclosed, ?_⟩⟩
  intro earlier before kept
  have opens := kept.1
  match earlier, before with
  | 0, _ => exact absurd opens (by decide)
  | 1, _ => exact absurd ((partner 1 rfl).mp kept) (by decide)
  | 2, _ => exact absurd opens (by decide)

end Tree
end LoopTape
