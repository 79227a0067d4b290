import LoopTape.Proofs.Bracket.Height

namespace LoopTape
namespace Bracket

/-!
# Where the scans settle

A walk settles at the first of its characters after which its level is zero.
This is said first for walks with any weights, by what the weights of the
characters passed so far add up to.  It is then said for the two scans of a
text, by heights.

The scan upward from `start` compares every later height with the height at
`start`.  The scan downward from `stop` compares every earlier height with the
height just past `stop`.  Neither of them asks which character it starts on.
-/

/-! ## Walks with any weights -/

/-- What the first characters of a walk add to its level. -/
def climb (weight : Char -> Int) (walk : List Char) (count : Nat) : Int :=
  tally weight (walk.take count)

theorem climb_cons_one (weight : Char -> Int) (character : Char) (rest : List Char) :
    climb weight (character :: rest) 1 = weight character := by
  rw [climb, List.take_succ_cons, List.take_zero, tally, tally, Int.add_zero]

theorem climb_cons_succ (weight : Char -> Int) (character : Char) (rest : List Char)
    (count : Nat) :
    climb weight (character :: rest) (count + 1) = weight character + climb weight rest count := by
  rw [climb, List.take_succ_cons, tally, climb]

theorem settleFrom_eq_some_iff (weight : Char -> Int) (level : Int) (passed : Nat)
    (walk : List Char) (stop : Nat) :
    settleFrom weight level passed walk = some stop ↔
      Exists fun count => stop = passed + count ∧ count < walk.length ∧
        level + climb weight walk (count + 1) = 0 ∧
        forall fewer, fewer < count -> level + climb weight walk (fewer + 1) ≠ 0 := by
  induction walk generalizing level passed with
  | nil =>
      constructor
      · intro impossible
        cases impossible
      · rintro ⟨count, _, impossible, _⟩
        cases impossible
  | cons character rest inductionHypothesis =>
      unfold settleFrom
      by_cases settles : level + weight character = 0
      · rw [if_pos settles]
        constructor
        · intro found
          cases found
          refine ⟨0, rfl, Nat.succ_pos _, ?_, fun fewer impossible => absurd impossible (by omega)⟩
          rw [climb_cons_one]
          exact settles
        · rintro ⟨count, reached, _, _, before⟩
          have first : count = 0 := by
            apply Nat.eq_zero_of_not_pos
            intro later
            apply before 0 later
            rw [climb_cons_one]
            exact settles
          rw [reached, first, Nat.add_zero]
      · rw [if_neg settles, inductionHypothesis]
        constructor
        · rintro ⟨count, reached, within, balanced, before⟩
          refine ⟨count + 1, by omega, Nat.succ_lt_succ within, ?_, ?_⟩
          · rw [climb_cons_succ]
            omega
          · intro fewer less
            cases fewer with
            | zero =>
                rw [climb_cons_one]
                exact settles
            | succ fewer =>
                have apart := before fewer (by omega)
                rw [climb_cons_succ]
                omega
        · rintro ⟨count, reached, within, balanced, before⟩
          cases count with
          | zero =>
              rw [climb_cons_one] at balanced
              exact absurd balanced settles
          | succ count =>
              rw [climb_cons_succ] at balanced
              refine ⟨count, by omega, Nat.lt_of_succ_lt_succ within, by omega, ?_⟩
              intro fewer less
              have apart := before (fewer + 1) (by omega)
              rw [climb_cons_succ] at apart
              omega

theorem settleFrom_eq_none_iff (weight : Char -> Int) (level : Int) (passed : Nat)
    (walk : List Char) :
    settleFrom weight level passed walk = none ↔
      forall count, count < walk.length -> level + climb weight walk (count + 1) ≠ 0 := by
  induction walk generalizing level passed with
  | nil =>
      constructor
      · intro _ count impossible
        cases impossible
      · intro _
        rfl
  | cons character rest inductionHypothesis =>
      unfold settleFrom
      by_cases settles : level + weight character = 0
      · rw [if_pos settles]
        constructor
        · intro impossible
          cases impossible
        · intro apart
          refine absurd ?_ (apart 0 (Nat.succ_pos _))
          rw [climb_cons_one]
          exact settles
      · rw [if_neg settles, inductionHypothesis]
        constructor
        · intro apart count within
          cases count with
          | zero =>
              rw [climb_cons_one]
              exact settles
          | succ count =>
              have later := apart count (Nat.lt_of_succ_lt_succ within)
              rw [climb_cons_succ]
              omega
        · intro apart count within
          have later := apart (count + 1) (Nat.succ_lt_succ within)
          rw [climb_cons_succ] at later
          omega

/-- Counting on from `passed` adds that number to where the walk settles. -/
theorem settleFrom_eq_map (weight : Char -> Int) (level : Int) (passed : Nat)
    (walk : List Char) :
    settleFrom weight level passed walk =
      (settleFrom weight level 0 walk).map (fun count => passed + count) := by
  apply Option.ext
  intro stop
  rw [settleFrom_eq_some_iff, Option.map_eq_some_iff]
  constructor
  · rintro ⟨count, reached, settled⟩
    refine ⟨count, (settleFrom_eq_some_iff _ _ _ _ _).mpr ⟨count, ?_, settled⟩, reached.symm⟩
    exact (Nat.zero_add count).symm
  · rintro ⟨found, settles, reached⟩
    rcases (settleFrom_eq_some_iff _ _ _ _ _).mp settles with ⟨count, same, settled⟩
    exact ⟨count, by omega, settled⟩

/-! ## The scans of a text -/

theorem loopEnd?_eq_settleFrom (text : List Char) (start : Nat) :
    loopEnd? text start = settleFrom opening 0 start (text.drop start) :=
  (settleFrom_eq_map opening 0 start (text.drop start)).symm

theorem climb_drop (text : List Char) (start count : Nat) :
    climb opening (text.drop start) count = heightAt text (start + count) - heightAt text start := by
  rw [← balance_take_drop]
  rfl

theorem climb_reverse_take {text : List Char} {stop : Nat} (inside : stop < text.length)
    (count : Nat) :
    climb closing (text.take (stop + 1)).reverse count =
      heightAt text (stop + 1 - count) - heightAt text (stop + 1) := by
  have length : (text.take (stop + 1)).length = stop + 1 := by
    rw [List.length_take]
    omega
  have back : balance ((text.take (stop + 1)).drop (stop + 1 - count)) =
      heightAt text (stop + 1) - heightAt text (stop + 1 - count) := by
    rw [balance_drop, heightAt_take (Nat.sub_le _ _)]
    rfl
  rw [climb, List.take_reverse, length, tally_closing, balance_reverse, back]
  omega

theorem loopEnd?_eq_some_iff (text : List Char) (start stop : Nat) :
    loopEnd? text start = some stop ↔
      start ≤ stop ∧ stop < text.length ∧ heightAt text (stop + 1) = heightAt text start ∧
        forall middle, start ≤ middle -> middle < stop ->
          heightAt text (middle + 1) ≠ heightAt text start := by
  rw [loopEnd?_eq_settleFrom, settleFrom_eq_some_iff, List.length_drop]
  constructor
  · rintro ⟨count, reached, within, level, before⟩
    rw [climb_drop, ← Nat.add_assoc, ← reached] at level
    refine ⟨by omega, by omega, by omega, ?_⟩
    intro middle later earlier equal
    apply before (middle - start) (by omega)
    rw [climb_drop, ← Nat.add_assoc, Nat.add_sub_cancel' later]
    omega
  · rintro ⟨ordered, inside, level, before⟩
    refine ⟨stop - start, by omega, by omega, ?_, ?_⟩
    · rw [climb_drop, ← Nat.add_assoc, Nat.add_sub_cancel' ordered]
      omega
    · intro fewer less
      have apart := before (start + fewer) (by omega) (by omega)
      rw [climb_drop, ← Nat.add_assoc]
      omega

theorem loopEnd?_eq_none_iff (text : List Char) (start : Nat) :
    loopEnd? text start = none ↔
      forall middle, start ≤ middle -> middle < text.length ->
        heightAt text (middle + 1) ≠ heightAt text start := by
  rw [loopEnd?_eq_settleFrom, settleFrom_eq_none_iff, List.length_drop]
  constructor
  · intro apart middle later inside
    have level := apart (middle - start) (by omega)
    rw [climb_drop, ← Nat.add_assoc, Nat.add_sub_cancel' later] at level
    omega
  · intro apart count within
    have level := apart (start + count) (by omega) (by omega)
    rw [climb_drop, ← Nat.add_assoc]
    omega

theorem loopBegin?_eq_some_iff {text : List Char} {stop : Nat} (inside : stop < text.length)
    (start : Nat) :
    loopBegin? text stop = some start ↔
      start ≤ stop ∧ heightAt text start = heightAt text (stop + 1) ∧
        forall middle, start < middle -> middle ≤ stop ->
          heightAt text middle ≠ heightAt text (stop + 1) := by
  have length : (text.take (stop + 1)).reverse.length = stop + 1 := by
    rw [List.length_reverse, List.length_take]
    omega
  unfold loopBegin? settle
  rw [Option.map_eq_some_iff]
  constructor
  · rintro ⟨passed, settled, reached⟩
    rcases (settleFrom_eq_some_iff _ _ _ _ _).mp settled with ⟨count, same, within, level, before⟩
    rw [length] at within
    rw [climb_reverse_take inside] at level
    have position : stop + 1 - (count + 1) = start := by omega
    rw [position] at level
    refine ⟨by omega, by omega, ?_⟩
    intro middle later earlier equal
    apply before (stop - middle) (by omega)
    rw [climb_reverse_take inside,
      show stop + 1 - (stop - middle + 1) = middle by omega]
    omega
  · rintro ⟨ordered, level, before⟩
    refine ⟨stop - start, (settleFrom_eq_some_iff _ _ _ _ _).mpr ⟨stop - start, ?_, ?_, ?_, ?_⟩,
      by omega⟩
    · rw [Nat.zero_add]
    · rw [length]
      omega
    · rw [climb_reverse_take inside,
        show stop + 1 - (stop - start + 1) = start by omega]
      omega
    · intro fewer less
      have apart := before (stop - fewer) (by omega) (by omega)
      rw [climb_reverse_take inside,
        show stop + 1 - (fewer + 1) = stop - fewer by omega]
      omega

theorem loopBegin?_eq_none_iff {text : List Char} {stop : Nat} (inside : stop < text.length) :
    loopBegin? text stop = none ↔
      forall middle, middle ≤ stop -> heightAt text middle ≠ heightAt text (stop + 1) := by
  have length : (text.take (stop + 1)).reverse.length = stop + 1 := by
    rw [List.length_reverse, List.length_take]
    omega
  unfold loopBegin? settle
  rw [Option.map_eq_none_iff, settleFrom_eq_none_iff, length]
  constructor
  · intro apart middle earlier
    have level := apart (stop - middle) (by omega)
    rw [climb_reverse_take inside,
      show stop + 1 - (stop - middle + 1) = middle by omega] at level
    omega
  · intro apart count within
    have level := apart (stop - count) (by omega)
    rw [climb_reverse_take inside,
      show stop + 1 - (count + 1) = stop - count by omega]
    omega

end Bracket
end LoopTape
