import LoopTape.Bracket.Scan

namespace LoopTape
namespace Bracket

/-!
# Heights

The height of a text at a position is the balance of everything in front of
it.  Along the text the height rises by one at an opening bracket, falls by one
at a closing bracket, and stays where it is at every other character.  It may
go below zero, since nothing stops a closing bracket from standing alone.

Both scans are searches for a position of a given height.  A walk upward from
`start` is balanced at the first character after which the height is again what
it was in front of `start`.  A walk downward from `stop` is balanced at the last
character in front of which the height is what it is after `stop`.  The two
walks exchange the signs of their weights, but the heights they compare are the
same, and this is what lets one direction be carried over to the other.

Heights move in single steps.  A walk that begins upward and never returns to
its first height therefore stays above it, and this turns the inequations that
the scans test into bounds.
-/

/-! ## The weights of characters -/

/-- An opening bracket counts one, a closing bracket minus one, all else nothing. -/
theorem opening_cases (character : Char) :
    (character = '[' ∧ Instruction.ofChar? character = some .loopStart ∧ opening character = 1) ∨
      (character = ']' ∧ Instruction.ofChar? character = some .loopStop ∧
        opening character = -1) ∨
      (character ≠ '[' ∧ character ≠ ']' ∧ opening character = 0) := by
  by_cases isStart : character = '['
  · subst isStart
    exact Or.inl ⟨rfl, rfl, rfl⟩
  · by_cases isStop : character = ']'
    · subst isStop
      exact Or.inr (Or.inl ⟨rfl, rfl, rfl⟩)
    · refine Or.inr (Or.inr ⟨isStart, isStop, ?_⟩)
      unfold opening
      split
      · rename_i reads
        exact absurd ((Instruction.ofChar?_eq_some_iff _ _).mp reads) isStart
      · rename_i reads
        exact absurd ((Instruction.ofChar?_eq_some_iff _ _).mp reads) isStop
      · rfl

theorem opening_nonpos {character : Char} (notStart : character ≠ '[') : opening character ≤ 0 := by
  rcases opening_cases character with ⟨same, _, _⟩ | ⟨_, _, weight⟩ | ⟨_, _, weight⟩
  · exact absurd same notStart
  · omega
  · omega

/-- Walking downward exchanges the signs. -/
theorem closing_eq_neg_opening (character : Char) : closing character = -opening character := by
  unfold closing opening
  split
  · rename_i reads
    rw [reads]
    rfl
  · rename_i reads
    rw [reads]
  · rename_i notStop notStart
    split
    · rename_i reads
      exact absurd reads notStart
    · rename_i reads
      exact absurd reads notStop
    · rfl

theorem balance_nil : balance [] = 0 := rfl

theorem balance_cons (character : Char) (rest : List Char) :
    balance (character :: rest) = opening character + balance rest := rfl

theorem tally_closing (text : List Char) : tally closing text = -balance text := by
  induction text with
  | nil => rfl
  | cons character rest inductionHypothesis =>
      rw [tally, inductionHypothesis, closing_eq_neg_opening, balance_cons]
      omega

theorem balance_append (front back : List Char) :
    balance (front ++ back) = balance front + balance back := by
  induction front with
  | nil => rw [List.nil_append, balance_nil, Int.zero_add]
  | cons character rest inductionHypothesis =>
      rw [List.cons_append, balance_cons, inductionHypothesis, balance_cons, Int.add_assoc]

theorem balance_reverse (text : List Char) : balance text.reverse = balance text := by
  induction text with
  | nil => rfl
  | cons character rest inductionHypothesis =>
      rw [List.reverse_cons, balance_append, inductionHypothesis, balance_cons, balance_cons,
        balance_nil, Int.add_zero, Int.add_comm]

/-- The balance is the number of opening brackets less that of closing ones. -/
theorem balance_eq_count_sub_count (text : List Char) :
    balance text = (text.count '[' : Int) - text.count ']' := by
  induction text with
  | nil => rfl
  | cons character rest inductionHypothesis =>
      rw [balance_cons, inductionHypothesis]
      rcases opening_cases character with ⟨same, _, weight⟩ | ⟨same, _, weight⟩ |
        ⟨notStart, notStop, weight⟩
      · subst same
        rw [weight, List.count_cons_self, List.count_cons_of_ne (by decide)]
        omega
      · subst same
        rw [weight, List.count_cons_self, List.count_cons_of_ne (by decide)]
        omega
      · rw [weight, List.count_cons_of_ne notStart, List.count_cons_of_ne notStop]
        omega

/-! ## The height at a position -/

/-- The balance of what stands in front of a position. -/
def heightAt (text : List Char) (position : Nat) : Int := balance (text.take position)

theorem heightAt_zero (text : List Char) : heightAt text 0 = 0 := rfl

theorem heightAt_length (text : List Char) : heightAt text text.length = balance text := by
  rw [heightAt, List.take_length]

theorem heightAt_of_length_le {text : List Char} {position : Nat}
    (outside : text.length ≤ position) : heightAt text position = balance text := by
  rw [heightAt, List.take_of_length_le outside]

theorem heightAt_cons_succ (character : Char) (rest : List Char) (position : Nat) :
    heightAt (character :: rest) (position + 1) = opening character + heightAt rest position := by
  rw [heightAt, List.take_succ_cons, balance_cons, heightAt]

theorem heightAt_succ {text : List Char} {position : Nat} {character : Char}
    (found : text[position]? = some character) :
    heightAt text (position + 1) = heightAt text position + opening character := by
  rw [heightAt, List.take_add_one, found, balance_append, Option.toList_some, balance_cons,
    balance_nil, Int.add_zero, heightAt]

/-- Heights move in single steps. -/
theorem heightAt_succ_near (text : List Char) (position : Nat) :
    heightAt text position - 1 ≤ heightAt text (position + 1) ∧
      heightAt text (position + 1) ≤ heightAt text position + 1 := by
  by_cases inside : position < text.length
  · rw [heightAt_succ (List.getElem?_eq_getElem inside)]
    rcases opening_cases text[position] with ⟨_, _, weight⟩ | ⟨_, _, weight⟩ | ⟨_, _, weight⟩ <;>
      omega
  · rw [heightAt_of_length_le (by omega), heightAt_of_length_le (by omega)]
    omega

theorem heightAt_take {count position : Nat} (within : position ≤ count) (text : List Char) :
    heightAt (text.take count) position = heightAt text position := by
  rw [heightAt, List.take_take, Nat.min_eq_left within, heightAt]

theorem heightAt_append_left {front : List Char} {position : Nat} (within : position ≤ front.length)
    (back : List Char) : heightAt (front ++ back) position = heightAt front position := by
  rw [heightAt, List.take_append_of_le_length within, heightAt]

theorem heightAt_append_right (front back : List Char) (position : Nat) :
    heightAt (front ++ back) (front.length + position) = balance front + heightAt back position := by
  rw [heightAt, List.take_length_add_append, balance_append, heightAt]

/-- The balance of a stretch is the difference of the heights at its ends. -/
theorem balance_take_drop (text : List Char) (start count : Nat) :
    balance ((text.drop start).take count) = heightAt text (start + count) - heightAt text start := by
  have split : text.take (start + count) = text.take start ++ (text.drop start).take count :=
    List.take_add
  rw [heightAt, split, balance_append, heightAt]
  omega

theorem balance_drop (text : List Char) (start : Nat) :
    balance (text.drop start) = balance text - heightAt text start := by
  have split : balance (text.take start ++ text.drop start) = balance text :=
    congrArg balance (List.take_append_drop start text)
  rw [balance_append] at split
  rw [heightAt]
  omega

/-- A walk upward that begins above a level and never meets it stays above it. -/
theorem heightAt_above_of_ne {text : List Char} {level : Int} {start stop : Nat}
    (begins : level < heightAt text start)
    (away : forall middle, start < middle -> middle ≤ stop -> heightAt text middle ≠ level) :
    forall middle, start ≤ middle -> middle ≤ stop -> level < heightAt text middle := by
  intro middle later within
  induction middle with
  | zero => rwa [Nat.le_zero.mp later] at begins
  | succ middle inductionHypothesis =>
      by_cases first : start = middle + 1
      · rw [← first]
        exact begins
      · have above := inductionHypothesis (by omega) (by omega)
        have near := heightAt_succ_near text middle
        have apart := away (middle + 1) (by omega) within
        omega

/-- A walk downward that begins above a level and never meets it stays above it. -/
theorem heightAt_above_of_ne_downward {text : List Char} {level : Int} {start stop : Nat}
    (begins : level < heightAt text stop)
    (away : forall middle, start < middle -> middle ≤ stop -> heightAt text middle ≠ level) :
    forall middle, start < middle -> middle ≤ stop -> level < heightAt text middle := by
  intro middle later within
  induction stop with
  | zero => omega
  | succ stop inductionHypothesis =>
      by_cases last : middle = stop + 1
      · rw [last]
        exact begins
      · have near := heightAt_succ_near text stop
        have apart := away stop (by omega) (by omega)
        exact inductionHypothesis (by omega)
          (fun other after below => away other after (by omega)) (by omega)

end Bracket
end LoopTape
