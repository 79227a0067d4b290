import LoopTape.Proofs.Bracket.Relocation
import LoopTape.Proofs.Tree.Acceptance

namespace LoopTape
namespace Bracket

/-!
# Brackets across a seam

Two texts are written one after the other.  In the front text, heights are what
they were.  In the back text they are higher or lower by the balance of the front
text, which changes nothing about which brackets belong together there.

If the front text leaves no loop open, no loop crosses the seam: from every
position of it the height has come down again at its end.  A closing bracket of
the back text may be without a partner there, and a scan from it then passes the
whole front text without finding one.
-/

variable {front back : List Char}

theorem encloses_append_left {start stop : Nat} (inside : stop < front.length) :
    Encloses (front ++ back) start stop ↔ Encloses front start stop := by
  have same : forall position, position ≤ stop + 1 ->
      heightAt (front ++ back) position = heightAt front position :=
    fun position within => heightAt_append_left (Nat.le_trans within inside) back
  constructor
  · intro encloses
    have ordered := encloses.ordered
    refine ⟨ordered, inside, ?_, ?_⟩
    · rw [← same (stop + 1) (Nat.le_refl _), encloses.level, same start (by omega)]
    · intro middle later within
      rw [← same start (by omega), ← same middle (by omega)]
      exact encloses.above middle later within
  · intro encloses
    have ordered := encloses.ordered
    refine ⟨ordered, ?_, ?_, ?_⟩
    · rw [List.length_append]
      omega
    · rw [same (stop + 1) (Nat.le_refl _), encloses.level, same start (by omega)]
    · intro middle later within
      rw [same start (by omega), same middle (by omega)]
      exact encloses.above middle later within

theorem encloses_append_right {start stop : Nat} :
    Encloses (front ++ back) (front.length + start) (front.length + stop) ↔
      Encloses back start stop := by
  constructor
  · intro encloses
    have ordered := encloses.ordered
    have inside := encloses.inside
    have level := encloses.level
    rw [List.length_append] at inside
    rw [Nat.add_assoc, heightAt_append_right, heightAt_append_right] at level
    refine ⟨by omega, by omega, by omega, ?_⟩
    intro middle later within
    have above := encloses.above (front.length + middle) (by omega) (by omega)
    rw [heightAt_append_right, heightAt_append_right] at above
    omega
  · intro encloses
    have ordered := encloses.ordered
    have inside := encloses.inside
    have level := encloses.level
    refine ⟨by omega, ?_, ?_, ?_⟩
    · rw [List.length_append]
      omega
    · rw [Nat.add_assoc, heightAt_append_right, heightAt_append_right, level]
    · intro middle later within
      have above := encloses.above (middle - front.length) (by omega) (by omega)
      rw [show middle = front.length + (middle - front.length) by omega, heightAt_append_right,
        heightAt_append_right]
      omega

/-- No loop begins in a terminated text and ends behind it. -/
theorem Encloses.start_behind {start stop : Nat} (encloses : Encloses (front ++ back) start stop)
    (terminated : Terminated front) (behind : front.length ≤ stop) : front.length ≤ start := by
  apply Nat.le_of_not_lt
  intro before
  have above := encloses.above front.length before behind
  have level := terminated start
  rw [balance_drop] at level
  rw [heightAt_append_left (Nat.le_of_lt before), heightAt_append_left (Nat.le_refl _),
    heightAt_length] at above
  omega

/-- Every loop that a terminated text opens ends in it. -/
theorem Terminated.exists_encloses (terminated : Terminated front) {start : Nat}
    (opens : front[start]? = some '[') : Exists fun stop => Encloses front start stop := by
  have closed := Tree.not_unclosed_of_terminated terminated start
  rw [Tree.unclosed_iff_closingPartner?_eq_none opens] at closed
  rcases Option.ne_none_iff_exists'.mp closed with ⟨stop, found⟩
  exact ⟨stop, (closingPartner?_eq_some_iff front start stop).mp found⟩

/-- A terminated text is found again in front of any other. -/
theorem relocation_front (terminated : Terminated front) (back : List Char) :
    Relocation front (front ++ back) (fun position => position) := by
  have kept : forall {position : Nat} {character : Char}, front[position]? = some character ->
      (front ++ back)[position]? = some character := by
    intro position character found
    rwa [List.getElem?_append_left (List.getElem?_eq_some_iff.mp found).1]
  refine ⟨fun found _ => ⟨kept found, rfl⟩, fun found _ => Or.inr ⟨kept found, rfl⟩, ?_, ?_, ?_⟩
  · intro start stop encloses
    exact (encloses_append_left encloses.inside).mpr encloses
  · intro start stop opens encloses
    rcases terminated.exists_encloses opens with ⟨origin, within⟩
    have same := encloses.stop_unique ((encloses_append_left within.inside).mpr within)
    exact ⟨origin, same, within⟩
  · intro start stop closes encloses
    have inside := (List.getElem?_eq_some_iff.mp closes).1
    exact ⟨start, rfl, (encloses_append_left inside).mp encloses⟩

/-- Any text is found again behind a terminated one. -/
theorem relocation_back (terminated : Terminated front) (back : List Char) :
    Relocation back (front ++ back) (fun position => front.length + position) := by
  have kept : forall {position : Nat} {character : Char}, back[position]? = some character ->
      (front ++ back)[front.length + position]? = some character := by
    intro position character found
    rwa [List.getElem?_append_right (Nat.le_add_right _ _), Nat.add_sub_cancel_left]
  refine ⟨fun found _ => ⟨kept found, rfl⟩, fun found _ => Or.inr ⟨kept found, rfl⟩, ?_, ?_, ?_⟩
  · intro start stop encloses
    exact encloses_append_right.mpr encloses
  · intro start stop _ encloses
    have ordered := encloses.ordered
    have behind : stop = front.length + (stop - front.length) := by omega
    rw [behind] at encloses
    exact ⟨_, behind, encloses_append_right.mp encloses⟩
  · intro start stop _ encloses
    have after := encloses.start_behind terminated (Nat.le_add_right _ _)
    have behind : start = front.length + (start - front.length) := by omega
    rw [behind] at encloses
    exact ⟨_, behind, encloses_append_right.mp encloses⟩

end Bracket
end LoopTape
