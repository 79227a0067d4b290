import Mathlib.Order.Bounds.Defs
import LoopTape.Proofs.Bracket.Walks

namespace LoopTape
namespace Bracket

/-!
# Scans from any start

A scan may start on any character.  It ends at the nearest place such that the stretch of
the text from its start to there, the characters at both ends included, has as many opening
brackets as closing ones.  A scan that starts on neither bracket ends at once.  A scan
upward from a closing bracket looks for the opening bracket that makes up for it, which has
nothing to do with a loop.

The two scans are mirror images.  They count with opposite signs, but a level is zero
exactly when its opposite is, and so a scan downward ends where a scan upward over the
reversed text does.

From a start outside the text the two are no longer alike.  Upward from below zero there
are the last characters of the text to be met first, and the scan goes over these and then
over the whole text.  Downward from below zero there is nothing.
-/

/-- The opening brackets of a stretch of a text less its closing brackets.  The characters
at both ends belong to the stretch. -/
def excess (text : List Char) (first last : Nat) : Int :=
  (((text.take (last + 1)).drop first).count '[' : Int) -
    ((text.take (last + 1)).drop first).count ']'

/-- The least place of a kind, or nothing if no place is of this kind. -/
def LeastOf (kind : Set Nat) : Option Nat -> Prop
  | some place => IsLeast kind place
  | none => forall place, place ∉ kind

/-- The greatest place of a kind, or nothing if no place is of this kind. -/
def GreatestOf (kind : Set Nat) : Option Nat -> Prop
  | some place => IsGreatest kind place
  | none => forall place, place ∉ kind

/-! ## Inside the text -/

theorem excess_eq_heightAt {first last : Nat} (ordered : first ≤ last + 1) (text : List Char) :
    excess text first last = heightAt text (last + 1) - heightAt text first := by
  rw [excess, ← balance_eq_count_sub_count, balance_drop, heightAt_take ordered]
  rfl

theorem leastOf_loopEnd? (text : List Char) (start : Nat) :
    LeastOf {stop | start ≤ stop ∧ stop < text.length ∧ excess text start stop = 0}
      (loopEnd? text start) := by
  cases ends : loopEnd? text start with
  | none =>
      rintro stop ⟨ordered, inside, even⟩
      have apart := (loopEnd?_eq_none_iff text start).mp ends stop ordered inside
      rw [excess_eq_heightAt (Nat.le_succ_of_le ordered)] at even
      omega
  | some stop =>
      rcases (loopEnd?_eq_some_iff text start stop).mp ends with ⟨ordered, inside, level, before⟩
      constructor
      · refine ⟨ordered, inside, ?_⟩
        rw [excess_eq_heightAt (Nat.le_succ_of_le ordered)]
        omega
      · rintro other ⟨later, _, even⟩
        apply Nat.le_of_not_lt
        intro earlier
        have apart := before other later earlier
        rw [excess_eq_heightAt (Nat.le_succ_of_le later)] at even
        omega

theorem greatestOf_loopBegin? {text : List Char} {stop : Nat} (inside : stop < text.length) :
    GreatestOf {start | start ≤ stop ∧ excess text start stop = 0} (loopBegin? text stop) := by
  cases begins : loopBegin? text stop with
  | none =>
      rintro start ⟨ordered, even⟩
      have apart := (loopBegin?_eq_none_iff inside).mp begins start ordered
      rw [excess_eq_heightAt (Nat.le_succ_of_le ordered)] at even
      omega
  | some start =>
      rcases (loopBegin?_eq_some_iff inside start).mp begins with ⟨ordered, level, before⟩
      constructor
      · refine ⟨ordered, ?_⟩
        rw [excess_eq_heightAt (Nat.le_succ_of_le ordered)]
        omega
      · rintro other ⟨earlier, even⟩
        apply Nat.le_of_not_lt
        intro later
        have apart := before other later earlier
        rw [excess_eq_heightAt (Nat.le_succ_of_le earlier)] at even
        omega

/-! ## Mirror images -/

/-- Opposite weights settle a walk at the same character. -/
theorem settleFrom_closing (level : Int) (passed : Nat) (walk : List Char) :
    settleFrom closing (-level) passed walk = settleFrom opening level passed walk := by
  induction walk generalizing level passed with
  | nil => rfl
  | cons character rest inductionHypothesis =>
      have opposite : -level + closing character = -(level + opening character) := by
        rw [closing_eq_neg_opening]
        omega
      rw [settleFrom, settleFrom, opposite, inductionHypothesis]
      simp only [Int.neg_eq_zero]

/-- A scan downward is a scan upward over the reversed text, seen in the mirror. -/
theorem scanBackward_eq_mirror {text : List Char} {start : Nat} (inside : start < text.length) :
    scanBackward text start =
      (scanForward text.reverse (text.length - 1 - start)).map
        (Option.map (fun found : Int => text.length - 1 - found)) := by
  have met : text.reverse.drop (text.length - 1 - start) = (text.take (start + 1)).reverse := by
    rw [List.drop_reverse, show text.length - (text.length - 1 - start) = start + 1 by omega]
  have index : ((text.length : Int) - 1 - start).toNat = text.length - 1 - start := by omega
  have same : settle closing (text.take (start + 1)).reverse =
      settle opening (text.take (start + 1)).reverse := settleFrom_closing 0 0 _
  have place : forall passed : Nat, (text.length : Int) - 1 - (text.length - 1 - start + passed) =
      start - passed := by
    intro passed
    omega
  rw [scanBackward, scanForward, Text.downward, Text.upward, if_neg (by omega), if_pos (by omega),
    if_pos (by omega), index, met, Int.toNat_natCast]
  simp only [Except.map, same, Option.map_map, Function.comp_def, place]

/-! ## All starts -/

/-- A scan upward from below zero counts the characters of the text that it meets. -/
theorem scanForward_of_neg {text : List Char} {start : Int} (below : start < 0)
    (inside : -(text.length : Int) ≤ start) :
    scanForward text start =
      .ok ((loopEnd? (text.drop (text.length + start).toNat ++ text) 0).map
        (fun count : Nat => start + count)) := by
  rw [scanForward, Text.upward, if_neg (by omega), if_pos inside, loopEnd?, List.drop_zero,
    Option.map_map]
  simp only [Except.map, Function.comp_def, Nat.zero_add]

/-- From every start the two scans answer as a walk by index does, which is over in time, and
the answer is the nearest place at which the brackets between it and the start are even. -/
theorem scans_from_any_start (text : List Char) :
    (forall start : Nat, start < text.length ->
      (Exists fun stop? : Option Nat =>
        scanForward text start = .ok (stop?.map (fun stop : Nat => (stop : Int))) ∧
          LeastOf {stop | start ≤ stop ∧ stop < text.length ∧ excess text start stop = 0}
            stop?) ∧
      (Exists fun front? : Option Nat =>
        scanBackward text start = .ok (front?.map (fun front : Nat => (front : Int))) ∧
          GreatestOf {front | front ≤ start ∧ excess text front start = 0} front?) ∧
      scanBackward text start =
        (scanForward text.reverse (text.length - 1 - start)).map
          (Option.map (fun found : Int => text.length - 1 - found))) ∧
    (forall start : Int, text.length ≤ start ->
      scanForward text start = .ok none ∧
        scanBackward text start = .error (Text.indexFault start)) ∧
    (forall start : Int, start < 0 -> scanBackward text start = .ok none) ∧
    (forall start : Int, start < -(text.length : Int) ->
      scanForward text start = .error (Text.indexFault start)) ∧
    (forall start : Int, start < 0 -> -(text.length : Int) ≤ start ->
      forall whole, whole = text.drop (text.length + start).toNat ++ text ->
        Exists fun count? : Option Nat =>
          scanForward text start = .ok (count?.map (fun count : Nat => start + count)) ∧
            LeastOf {count | count < whole.length ∧ excess whole 0 count = 0} count?) ∧
    forall (start : Int) (answer : Except Text.IndexFault (Option Int)),
      ((Exists fun turns => turns ≤ (text.length - start).toNat ∧
        upwards.Walks text start 0 turns answer) ↔ answer = scanForward text start) ∧
      ((Exists fun turns => turns ≤ (start + 1).toNat ∧
        downwards.Walks text start 0 turns answer) ↔ answer = scanBackward text start) := by
  refine ⟨?_, ?_, ?_, ?_, ?_, ?_⟩
  · intro start inside
    exact ⟨⟨_, scanForward_natCast text start, leastOf_loopEnd? text start⟩,
      ⟨_, scanBackward_natCast text start inside, greatestOf_loopBegin? inside⟩,
      scanBackward_eq_mirror inside⟩
  · intro start outside
    constructor
    · rw [scanForward, Text.upward, if_pos (by omega), List.drop_eq_nil_of_le (by omega)]
      rfl
    · rw [scanBackward, Text.downward, if_neg (by omega), if_neg (by omega)]
      rfl
  · intro start below
    rw [scanBackward, Text.downward, if_pos below]
    rfl
  · intro start outside
    rw [scanForward, Text.upward, if_neg (by omega), if_neg (by omega)]
    rfl
  · rintro start below inside whole rfl
    refine ⟨_, scanForward_of_neg below inside, ?_⟩
    have least := leastOf_loopEnd? (text.drop (text.length + start).toNat ++ text) 0
    simpa only [Nat.zero_le, true_and] using least
  · intro start answer
    constructor
    · rcases walks_scanForward text start with ⟨turns, few, walks⟩
      constructor
      · rintro ⟨_, _, other⟩
        exact (other.unique walks).2
      · rintro rfl
        exact ⟨turns, few, walks⟩
    · rcases walks_scanBackward text start with ⟨turns, few, walks⟩
      constructor
      · rintro ⟨_, _, other⟩
        exact (other.unique walks).2
      · rintro rfl
        exact ⟨turns, few, walks⟩

/-- The closing bracket at the front is made up for by the next character.  From the one at
the end the scan goes on at the front, meets that bracket first, and is even again only at
the second opening one. -/
theorem scans_around_closing_brackets :
    IsLeast {stop | 0 ≤ stop ∧ stop < 4 ∧ excess [']', '[', '[', ']'] 0 stop = 0} 1 ∧
      scanForward [']', '[', '[', ']'] (0 : Nat) = .ok (some 1) ∧
      IsLeast {count | count < 5 ∧ excess [']', ']', '[', '[', ']'] 0 count = 0} 3 ∧
      scanForward [']', '[', '[', ']'] (-1) = .ok (some 2) ∧
      scanBackward [']', '[', '[', ']'] (3 : Nat) =
        (scanForward [']', '[', '[', ']'] 0).map (Option.map (fun found : Int => 4 - 1 - found)) ∧
      scanForward [']', '[', '[', ']'] (-5) = .error .outOfRange ∧
      scanBackward [']', '[', '[', ']'] 4 = .error .outOfRange := by
  rcases scans_from_any_start [']', '[', '[', ']'] with
    ⟨inside, past, _, outside, wraps, _⟩
  have upFromFront : scanForward [']', '[', '[', ']'] (0 : Nat) = .ok (some 1) := rfl
  have upFromEnd : scanForward [']', '[', '[', ']'] (-1) = .ok (some 2) := rfl
  rcases inside 0 (by decide) with ⟨⟨_ | stop, found, least⟩, _, _⟩
  · cases found
  rcases wraps (-1) (by decide) (by decide) _ rfl with ⟨_ | count, found', least'⟩
  · cases found'
  have first : (1 : Int) = stop := Option.some.inj (Except.ok.inj (upFromFront.symm.trans found))
  have later : (2 : Int) = -1 + count :=
    Option.some.inj (Except.ok.inj (upFromEnd.symm.trans found'))
  obtain rfl : stop = 1 := by omega
  obtain rfl : count = 3 := by omega
  exact ⟨least, upFromFront, least', upFromEnd, (inside 3 (by decide)).2.2,
    outside (-5) (by decide), (past 4 (by decide)).2⟩

end Bracket
end LoopTape
