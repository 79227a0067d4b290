import Mathlib.Order.Bounds.Defs
import LoopTape.Proofs.Bracket.Settling

namespace LoopTape
namespace Bracket

/-!
# Walks by index

A walk carries an index and a level.  In each turn it looks up the character at its index,
lets the character change the level, and either ends there or moves the index by one.  It
is over when the index has passed the end of the text that the walk goes to.  This is how
the two scans go about it.  The scans of this library are instead told beforehand which
characters such a walk will meet, and count how many of them it passes.

Both come to the same answer.  Upward, the index only has to be below the length of the
text, so a walk from below zero looks up characters at indexes below zero.  It goes on
from the last character to the first without noticing it.  Downward, the walk is over at
once below zero.  The look-up fails only in the first turn, from a start that is too far
below the front or not below the length.
-/

/-! ## Turns -/

/-- A direction in which a text is walked over. -/
structure Direction where
  weight : Char -> Int
  /-- What is added to the index in each turn. -/
  stride : Int
  /-- Whether the walk over a text of the given length is over at an index. -/
  ended : Nat -> Int -> Prop

def upwards : Direction := ⟨opening, 1, fun length index => (length : Int) ≤ index⟩

def downwards : Direction := ⟨closing, -1, fun _ index => index < 0⟩

/-- From an index and a level a walk comes to an answer in so many turns. -/
inductive Direction.Walks (direction : Direction) (text : List Char) :
    Int -> Int -> Nat -> Except Text.IndexFault (Option Int) -> Prop
  | ended {index level : Int} (past : direction.ended text.length index) :
      Walks direction text index level 0 (.ok none)
  | fails {index level : Int} (inside : ¬ direction.ended text.length index)
      (missing : Text.charAt? text index = none) :
      Walks direction text index level 1 (.error (Text.indexFault index))
  | settles {index level : Int} {character : Char} (inside : ¬ direction.ended text.length index)
      (found : Text.charAt? text index = some character)
      (settled : level + direction.weight character = 0) :
      Walks direction text index level 1 (.ok (some index))
  | onward {index level : Int} {character : Char} {turns : Nat}
      {answer : Except Text.IndexFault (Option Int)}
      (inside : ¬ direction.ended text.length index)
      (found : Text.charAt? text index = some character)
      (unsettled : level + direction.weight character ≠ 0)
      (later : Walks direction text (index + direction.stride)
        (level + direction.weight character) turns answer) :
      Walks direction text index level (turns + 1) answer

variable {direction : Direction} {text walk : List Char} {index level : Int}

/-- There is one answer, and one number of turns after which it is there. -/
theorem Direction.Walks.unique {turns others : Nat}
    {answer other : Except Text.IndexFault (Option Int)}
    (first : direction.Walks text index level turns answer)
    (second : direction.Walks text index level others other) :
    turns = others ∧ answer = other := by
  induction first generalizing others other with
  | ended past =>
      cases second with
      | ended _ => exact ⟨rfl, rfl⟩
      | fails inside _ => exact absurd past inside
      | settles inside _ _ => exact absurd past inside
      | onward inside _ _ _ => exact absurd past inside
  | fails inside missing =>
      cases second with
      | ended past => exact absurd past inside
      | fails _ _ => exact ⟨rfl, rfl⟩
      | settles _ found _ => cases missing.symm.trans found
      | onward _ found _ _ => cases missing.symm.trans found
  | settles inside found settled =>
      cases second with
      | ended past => exact absurd past inside
      | fails _ missing => cases missing.symm.trans found
      | settles _ _ _ => exact ⟨rfl, rfl⟩
      | onward _ found' unsettled _ =>
          cases found.symm.trans found'
          exact absurd settled unsettled
  | onward inside found unsettled _ inductionHypothesis =>
      cases second with
      | ended past => exact absurd past inside
      | fails _ missing => cases missing.symm.trans found
      | settles _ found' settled =>
          cases found.symm.trans found'
          exact absurd settled unsettled
      | onward _ found' _ later' =>
          cases found.symm.trans found'
          rcases inductionHypothesis later' with ⟨sameTurns, sameAnswer⟩
          exact ⟨congrArg Nat.succ sameTurns, sameAnswer⟩

/-! ## What a walk meets -/

/-- The characters that a walk looks up from an index on, if nothing ends it before it is
over. -/
def Direction.Meets (direction : Direction) (text : List Char) : Int -> List Char -> Prop
  | index, [] => direction.ended text.length index
  | index, character :: rest =>
    ¬ direction.ended text.length index ∧ Text.charAt? text index = some character ∧
      direction.Meets text (index + direction.stride) rest

/-- A walk settles where the characters that it meets settle, and it takes no more turns
than there are characters. -/
theorem Direction.Meets.exists_walks (meets : direction.Meets text index walk) (level : Int) :
    Exists fun turns => turns ≤ walk.length ∧
      direction.Walks text index level turns
        (.ok ((settleFrom direction.weight level 0 walk).map
          (fun passed : Nat => index + direction.stride * passed))) := by
  induction walk generalizing index level with
  | nil => exact ⟨0, Nat.le_refl 0, .ended meets⟩
  | cons character rest inductionHypothesis =>
      rcases meets with ⟨inside, found, onward⟩
      by_cases settled : level + direction.weight character = 0
      · have here : index + direction.stride * ((0 : Nat) : Int) = index := by
          rw [Int.natCast_zero, Int.mul_zero, Int.add_zero]
        rw [settleFrom, if_pos settled, Option.map_some, here]
        exact ⟨1, Nat.succ_le_succ (Nat.zero_le _), .settles inside found settled⟩
      · rcases inductionHypothesis onward (level + direction.weight character) with
          ⟨turns, few, walks⟩
        have shifted : forall count : Nat, index + direction.stride * ((1 + count : Nat) : Int) =
            index + direction.stride + direction.stride * count := by
          intro count
          rw [Int.natCast_add, Int.natCast_one, Int.mul_add, Int.mul_one, Int.add_assoc]
        rw [settleFrom, if_neg settled, Nat.zero_add, settleFrom_eq_map, Option.map_map]
        simp only [Function.comp_def, shifted]
        exact ⟨turns + 1, Nat.succ_le_succ few, .onward inside found settled walks⟩

theorem charAt?_natCast (text : List Char) (place : Nat) :
    Text.charAt? text (place : Int) = text[place]? :=
  Text.bind_place?_of_nonneg text (Int.natCast_nonneg place)

theorem charAt?_of_neg (below : index < 0) (inside : -(text.length : Int) ≤ index) :
    Text.charAt? text index = text[(text.length + index).toNat]? := by
  rw [Text.charAt?, Text.place?, if_neg (by omega), if_pos inside]
  rfl

/-! ## Upward -/

theorem le_of_upward_nil (meets : Text.upward text index = .ok []) :
    (text.length : Int) ≤ index := by
  unfold Text.upward at meets
  split at meets
  · have past := List.drop_eq_nil_iff.mp (Except.ok.inj meets)
    omega
  · split at meets
    · have empty := List.length_eq_zero_iff.mpr (List.append_eq_nil_iff.mp (Except.ok.inj meets)).2
      omega
    · cases meets

/-- A walk upward that meets a character meets the rest from the next index on.  From the
index below zero that is the whole text. -/
theorem upward_cons {character : Char} {rest : List Char}
    (meets : Text.upward text index = .ok (character :: rest)) :
    index < text.length ∧ Text.charAt? text index = some character ∧
      Text.upward text (index + 1) = .ok rest := by
  have head : forall {place : Nat} {back : List Char},
      text.drop place = character :: back ->
        text[place]? = some character ∧ text.drop (place + 1) = back := by
    intro place back same
    rw [← List.tail_drop, ← List.head?_drop, same]
    exact ⟨rfl, rfl⟩
  by_cases nonneg : 0 ≤ index
  · rcases Int.eq_ofNat_of_zero_le nonneg with ⟨place, rfl⟩
    rw [Text.upward, if_pos nonneg] at meets
    rcases head (Except.ok.inj meets) with ⟨found, behind⟩
    refine ⟨Int.ofNat_lt.mpr (List.getElem?_eq_some_iff.mp found).1, ?_, ?_⟩
    · rw [charAt?_natCast]
      exact found
    · rw [Text.upward, if_pos (by omega)]
      exact congrArg Except.ok behind
  · by_cases inside : -(text.length : Int) ≤ index
    · rw [Text.upward, if_neg nonneg, if_pos inside] at meets
      have short : (text.length + index).toNat < text.length := by omega
      have cut := List.drop_eq_getElem_cons short
      rw [cut, List.cons_append] at meets
      rcases List.cons.inj (Except.ok.inj meets) with ⟨first, behind⟩
      rcases head (cut.trans (congrArg (fun first => first :: _) first)) with ⟨found, _⟩
      refine ⟨by omega, (charAt?_of_neg (by omega) inside).trans found, ?_⟩
      by_cases last : index = -1
      · -- The last character has been met, and the walk goes on from the front.
        have ended : (text.length + index).toNat + 1 = text.length := by omega
        rw [ended, List.drop_length, List.nil_append] at behind
        rw [last, ← behind]
        rfl
      · have next : (text.length + (index + 1)).toNat = (text.length + index).toNat + 1 := by omega
        rw [Text.upward, if_neg (by omega), if_pos (by omega), next]
        exact congrArg Except.ok behind
    · rw [Text.upward, if_neg nonneg, if_neg inside] at meets
      cases meets

theorem meets_upward (meets : Text.upward text index = .ok walk) :
    upwards.Meets text index walk := by
  induction walk generalizing index with
  | nil => exact le_of_upward_nil meets
  | cons character rest inductionHypothesis =>
      rcases upward_cons meets with ⟨inside, found, onward⟩
      exact ⟨Int.not_le.mpr inside, found, inductionHypothesis onward⟩

theorem length_upward (meets : Text.upward text index = .ok walk) :
    walk.length = (text.length - index).toNat := by
  unfold Text.upward at meets
  split at meets
  · rw [← Except.ok.inj meets, List.length_drop]
    omega
  · split at meets
    · rw [← Except.ok.inj meets, List.length_append, List.length_drop]
      omega
    · cases meets

theorem upward_error {fault : Text.IndexFault} (fails : Text.upward text index = .error fault) :
    index < -(text.length : Int) ∧ fault = Text.indexFault index := by
  unfold Text.upward at fails
  split at fails
  · cases fails
  · split at fails
    · cases fails
    · exact ⟨by omega, (Except.error.inj fails).symm⟩

/-! ## Downward -/

theorem neg_of_downward_nil (meets : Text.downward text index = .ok []) : index < 0 := by
  unfold Text.downward at meets
  split at meets
  · assumption
  · split at meets
    · have empty := congrArg List.length (Except.ok.inj meets)
      rw [List.length_reverse, List.length_take, List.length_nil] at empty
      omega
    · cases meets

theorem downward_cons {character : Char} {rest : List Char}
    (meets : Text.downward text index = .ok (character :: rest)) :
    0 ≤ index ∧ Text.charAt? text index = some character ∧
      Text.downward text (index + -1) = .ok rest := by
  unfold Text.downward at meets
  split at meets
  · cases meets
  · split at meets
    · rcases Int.eq_ofNat_of_zero_le (Int.not_lt.mp (by assumption)) with ⟨place, rfl⟩
      have inside : place < text.length := by omega
      rw [Int.toNat_natCast, List.take_succ_eq_append_getElem inside, List.reverse_append,
        List.reverse_singleton, List.singleton_append] at meets
      rcases List.cons.inj (Except.ok.inj meets) with ⟨first, behind⟩
      refine ⟨Int.natCast_nonneg place, ?_, ?_⟩
      · rw [charAt?_natCast, List.getElem?_eq_getElem inside, first]
      · cases place with
        | zero => exact congrArg Except.ok behind
        | succ place =>
            have next : ((place + 1 : Nat) : Int) + -1 = place := by omega
            rw [next, Text.downward, if_neg (by omega), if_pos (by omega), Int.toNat_natCast]
            exact congrArg Except.ok behind
    · cases meets

theorem meets_downward (meets : Text.downward text index = .ok walk) :
    downwards.Meets text index walk := by
  induction walk generalizing index with
  | nil => exact neg_of_downward_nil meets
  | cons character rest inductionHypothesis =>
      rcases downward_cons meets with ⟨nonneg, found, onward⟩
      exact ⟨Int.not_lt.mpr nonneg, found, inductionHypothesis onward⟩

theorem length_downward (meets : Text.downward text index = .ok walk) :
    walk.length = (index + 1).toNat := by
  unfold Text.downward at meets
  split at meets
  · rw [← Except.ok.inj meets, List.length_nil]
    omega
  · split at meets
    · rw [← Except.ok.inj meets, List.length_reverse, List.length_take]
      omega
    · cases meets

theorem downward_error {fault : Text.IndexFault} (fails : Text.downward text index = .error fault) :
    (text.length : Int) ≤ index ∧ 0 ≤ index ∧ fault = Text.indexFault index := by
  unfold Text.downward at fails
  split at fails
  · cases fails
  · split at fails
    · cases fails
    · exact ⟨by omega, by omega, (Except.error.inj fails).symm⟩

/-! ## Scans -/

/-- A walk upward comes to the answer of the scan, in no more turns than there are indexes
from its start to the end of the text. -/
theorem walks_scanForward (text : List Char) (start : Int) :
    Exists fun turns => turns ≤ (text.length - start).toNat ∧
      upwards.Walks text start 0 turns (scanForward text start) := by
  unfold scanForward
  cases meets : Text.upward text start with
  | error fault =>
      rcases upward_error meets with ⟨outside, rfl⟩
      have missing : Text.charAt? text start = none := by
        rw [Text.charAt?, Text.place?, if_neg (by omega), if_neg (by omega)]
        rfl
      exact ⟨1, by omega, .fails (Int.not_le.mpr (by omega)) missing⟩
  | ok walk =>
      rcases (meets_upward meets).exists_walks 0 with ⟨turns, few, walks⟩
      rw [length_upward meets] at few
      have answer : forall passed : Nat, start + upwards.stride * passed = start + passed :=
        fun passed => by rw [upwards, Int.one_mul]
      simp only [answer] at walks
      exact ⟨turns, few, walks⟩

/-- A walk downward comes to the answer of the scan, in no more turns than there are indexes
from its start to the front of the text. -/
theorem walks_scanBackward (text : List Char) (start : Int) :
    Exists fun turns => turns ≤ (start + 1).toNat ∧
      downwards.Walks text start 0 turns (scanBackward text start) := by
  unfold scanBackward
  cases meets : Text.downward text start with
  | error fault =>
      rcases downward_error meets with ⟨outside, nonneg, rfl⟩
      have missing : Text.charAt? text start = none := by
        rw [Text.charAt?, Text.place?, if_pos nonneg, if_neg (Int.not_lt.mpr outside)]
        rfl
      exact ⟨1, by omega, .fails (Int.not_lt.mpr nonneg) missing⟩
  | ok walk =>
      rcases (meets_downward meets).exists_walks 0 with ⟨turns, few, walks⟩
      rw [length_downward meets] at few
      have answer : forall passed : Nat, start + downwards.stride * passed = start - passed :=
        fun passed => by rw [downwards, Int.neg_mul, Int.one_mul, Int.sub_eq_add_neg]
      simp only [answer] at walks
      exact ⟨turns, few, walks⟩

end Bracket
end LoopTape
