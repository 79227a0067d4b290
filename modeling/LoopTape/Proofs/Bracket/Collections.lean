import LoopTape.Proofs.Bracket.Nesting
import LoopTape.Proofs.Bracket.Partners

namespace LoopTape
namespace Bracket

/-!
# Collections and scans

Reading collects the body of a loop, and running scans for its end.  The two go over
the same text with different counts.  The collection starts behind the opening bracket
and counts the loops that are open inside the body.  The scan starts on the bracket and
has counted it before it looks at the body.  From an opening bracket they come to the
same closing bracket, or both come to the end of the text.

The collection never looks at the character where it starts.  From below zero it first
meets the characters at the end of the text and then the text from its front, so a loop
that it has entered at the end may be closed at the front.  The index that it answers is
counted on from its start, and it is below zero itself when the loop ends before the
collection has come to the front.
-/

/-- What a collection answers: the text that it has collected, and the index just past
the closing bracket if it came to one. -/
def collection (text : List Char) (start : Int) :
    Except Text.IndexFault (List Char × Option Int) :=
  (bodyAt text start).map (fun body => (body.inner, body.next? start))

/-- What a collection meets from a start below zero. -/
def wrapped (text : List Char) (start : Int) : List Char :=
  if start = -1 then text else text.drop (text.length + (start + 1)).toNat ++ text

variable {text : List Char}

/-! ## Where collections end -/

theorem Nested.count_eq (nested : Nested text) : text.count '[' = text.count ']' := by
  have level := nested.level
  rw [balance_eq_count_sub_count] at level
  omega

theorem Nested.count_take_le (nested : Nested text) (place : Nat) :
    (text.take place).count ']' ≤ (text.take place).count '[' := by
  have above := nested.nonneg place
  rw [heightAt, balance_eq_count_sub_count] at above
  omega

/-- From an opening bracket a collection ends where the scan does. -/
theorem collect_eq_of_opens {start : Nat} (opens : text[start]? = some '[') :
    collect (text.drop (start + 1)) =
      match loopEnd? text start with
      | some stop => ⟨(text.take stop).drop (start + 1), true⟩
      | none => ⟨text.drop (start + 1), false⟩ := by
  rcases List.getElem?_eq_some_iff.mp opens with ⟨inside, same⟩
  -- The scan has passed the bracket and stands one level up, as the collection does.
  have behind : loopEnd? text start =
      (settleFrom opening (((0 : Nat) : Int) + 1) 0 (text.drop (start + 1))).map
        (fun count => start + 1 + count) := by
    rw [loopEnd?_eq_settleFrom, List.drop_eq_getElem_cons inside, same, settleFrom,
      show opening '[' = 1 from rfl, if_neg (by omega), settleFrom_eq_map]
    rfl
  rw [behind, collect, collectFrom_eq]
  cases settleFrom opening (((0 : Nat) : Int) + 1) 0 (text.drop (start + 1)) with
  | none => rfl
  | some count =>
      dsimp only [Option.map_some]
      rw [List.drop_take, Nat.add_sub_cancel_left]
      rfl

/-! ## Collections from an index -/

theorem collection_of_upward {start : Int} {rest : List Char}
    (meets : Text.upward text (start + 1) = .ok rest) :
    collection text start = .ok ((collect rest).inner, (collect rest).next? start) := by
  rw [collection, bodyAt, meets]
  rfl

theorem collection_natCast (text : List Char) (start : Nat) :
    collection text start =
      .ok ((collect (text.drop (start + 1))).inner,
        (collect (text.drop (start + 1))).next? start) := by
  apply collection_of_upward
  rw [Text.upward, if_pos (by omega)]
  rfl

theorem upward_wrapped {start : Int} (below : start < 0) (inside : -(text.length : Int) ≤ start + 1) :
    Text.upward text (start + 1) = .ok (wrapped text start) := by
  unfold Text.upward wrapped
  by_cases last : start = -1
  · rw [last]
    rfl
  · rw [if_neg (by omega), if_pos inside, if_neg last]

theorem next?_eq_map_next? (body : Body) (start : Int) :
    body.next? start = (body.next? 0).map (fun stop => stop + start) := by
  unfold Body.next?
  cases body.closed with
  | false => rfl
  | true =>
      simp only [if_true, Option.map_some, Option.some.injEq]
      omega

theorem next?_zero_nonneg {body : Body} {stop : Int} (ends : body.next? 0 = some stop) :
    0 ≤ stop := by
  unfold Body.next? at ends
  cases closed : body.closed with
  | false =>
      rw [closed] at ends
      cases ends
  | true =>
      rw [closed] at ends
      have same : 0 + (body.inner.length : Int) + 2 = stop := Option.some.inj ends
      omega

/-! ## Collections from an opening bracket -/

/-- Between an opening bracket and the one that the scan finds, all brackets belong
together. -/
theorem nested_of_loopEnd? {start stop : Nat} (opens : text[start]? = some '[')
    (ends : loopEnd? text start = some stop) : Nested ((text.take stop).drop (start + 1)) := by
  have collected := collect_eq_of_opens opens
  rw [ends] at collected
  have nested := (nested_of_collect_closed (congrArg Body.closed collected)).1
  rwa [collected] at nested

theorem collection_of_loopEnd? {start stop : Nat} (opens : text[start]? = some '[')
    (ends : loopEnd? text start = some stop) :
    collection text start =
      .ok ((text.take stop).drop (start + 1), some ((stop : Int) + 1)) := by
  have encloses := (loopEnd?_eq_some_iff_encloses opens stop).mp ends
  have ordered := encloses.ordered
  have length : ((text.take stop).drop (start + 1)).length = stop - (start + 1) := by
    rw [List.length_drop, List.length_take, Nat.min_eq_left (Nat.le_of_lt encloses.inside)]
  have past : (start : Int) + (stop - (start + 1) : Nat) + 2 = (stop : Int) + 1 := by omega
  rw [collection_natCast, collect_eq_of_opens opens, ends]
  simp only [Body.next?, length, past, if_true]

theorem collection_of_not_loopEnd? {start : Nat} (opens : text[start]? = some '[')
    (never : loopEnd? text start = none) :
    collection text start = .ok (text.drop (start + 1), none) := by
  rw [collection_natCast, collect_eq_of_opens opens, never]
  rfl

/-! ## All starts -/

/-- From an opening bracket a collection and the scan upward agree: both find the closing
bracket of the loop, with a body between in which all brackets belong together, or none
of them does.  From any other index a collection answers as from an opening bracket in
front of what it meets, and it fails when there is no character at its first index. -/
theorem collections_agree_with_scans (text : List Char) :
    (forall start : Nat, text[start]? = some '[' ->
      (Exists fun stop : Nat => scanForward text start = .ok (some (stop : Int)) ∧
        start < stop ∧ text[stop]? = some ']' ∧
        collection text start = .ok ((text.take stop).drop (start + 1), some ((stop : Int) + 1)) ∧
        ((text.take stop).drop (start + 1)).count '[' =
          ((text.take stop).drop (start + 1)).count ']' ∧
        forall place, (((text.take stop).drop (start + 1)).take place).count ']' ≤
          (((text.take stop).drop (start + 1)).take place).count '[') ∨
      (scanForward text start = .ok none ∧
        collection text start = .ok (text.drop (start + 1), none))) ∧
    (forall (start : Nat) (character : Char),
      collection (text.set start character) start = collection text start) ∧
    (forall start : Nat, text.length ≤ start + 1 -> collection text start = .ok ([], none)) ∧
    (forall start : Int, start < 0 -> -(text.length : Int) ≤ start + 1 ->
      Exists fun inner => Exists fun next : Option Int =>
        collection ('[' :: wrapped text start) 0 = .ok (inner, next) ∧
          (forall stop, next = some stop -> 0 ≤ stop) ∧
          collection text start = .ok (inner, next.map (fun stop => stop + start))) ∧
    forall start : Int, start + 1 < -(text.length : Int) ->
      collection text start = .error (Text.indexFault (start + 1)) := by
  refine ⟨?_, ?_, ?_, ?_, ?_⟩
  · intro start opens
    rw [scanForward_natCast]
    cases ends : loopEnd? text start with
    | none => exact Or.inr ⟨rfl, collection_of_not_loopEnd? opens ends⟩
    | some stop =>
        have encloses := (loopEnd?_eq_some_iff_encloses opens stop).mp ends
        have nested := nested_of_loopEnd? opens ends
        exact Or.inl ⟨stop, rfl, encloses.ordered, encloses.closes,
          collection_of_loopEnd? opens ends, nested.count_eq, nested.count_take_le⟩
  · intro start character
    rw [collection_natCast, collection_natCast, List.drop_set_of_lt (Nat.lt_succ_self start)]
  · intro start outside
    rw [collection_natCast, List.drop_eq_nil_of_le outside]
    rfl
  · intro start below inside
    have front : Text.upward ('[' :: wrapped text start) (0 + 1) = .ok (wrapped text start) := rfl
    refine ⟨_, _, collection_of_upward front, fun stop ends => next?_zero_nonneg ends, ?_⟩
    rw [collection_of_upward (upward_wrapped below inside), next?_eq_map_next? _ start]
  · intro start outside
    rw [collection, bodyAt, Text.upward, if_neg (by omega), if_neg (by omega)]
    rfl

/-- From six characters below zero the loop is met where it stands, and its end is the
index below zero. -/
theorem collections_of_nested_loop :
    scanForward ['[', '[', ']', 'x', ']', '+'] (0 : Nat) = .ok (some ((4 : Nat) : Int)) ∧
      collection ['[', '[', ']', 'x', ']', '+'] (0 : Nat) =
        .ok (['[', ']', 'x'], some (((4 : Nat) : Int) + 1)) ∧
      collection ['[', '[', ']', 'x', ']', '+'] (-6) = .ok (['[', ']', 'x'], some (-1)) ∧
      collection ['[', '[', ']', 'x', ']', '+'] (-8) = .error .outOfRange := by
  rcases collections_agree_with_scans ['[', '[', ']', 'x', ']', '+'] with
    ⟨fromStart, _, _, fromBelow, fails⟩
  have scanned : scanForward ['[', '[', ']', 'x', ']', '+'] (0 : Nat) =
      .ok (some ((4 : Nat) : Int)) := rfl
  refine ⟨scanned, ?_, ?_, fails (-8) (by decide)⟩
  · rcases fromStart 0 rfl with ⟨stop, found, _, _, collected, _⟩ | ⟨missed, _⟩
    · rw [scanned] at found
      have same : 4 = stop := Int.natCast_inj.mp (Option.some.inj (Except.ok.inj found))
      rw [← same] at collected
      exact collected
    · rw [scanned] at missed
      cases missed
  · rcases fromBelow (-6) (by decide) (by decide) with ⟨inner, next, whole, _, collected⟩
    have answered : (['[', ']', 'x'], some 5) = (inner, next) := Except.ok.inj whole
    cases answered
    exact collected

end Bracket
end LoopTape
