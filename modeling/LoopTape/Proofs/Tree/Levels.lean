import LoopTape.Proofs.Tree.Measures
import LoopTape.Proofs.Tree.Reading

namespace LoopTape
namespace Tree

/-!
# Measures of texts

The measures of a tree that has been read can be told from the text, without any tree.
Each loop was opened by one bracket and closed by another, and every other character is
a leaf.  The depth takes a counter, which goes up at each opening bracket and down at
each closing one.  A closing bracket without a partner finds the counter at zero, and
there it has to stay: if it went below, the loops behind the bracket would seem to be
less deep than they are.

Inside a loop the counter never comes down to the level at which the loop was opened.
So it is left by the body as the body has found it, and the highest that it comes to in
between is the level of the body together with the depth of it.
-/

/-- The counter behind a character. -/
def levelBehind (level : Nat) (character : Char) : Nat :=
  if character = '[' then level + 1 else if character = ']' then level - 1 else level

/-- The counter behind the first characters of a text. -/
def levelAt (source : List Char) (place : Nat) : Nat := (source.take place).foldl levelBehind 0

/-- The highest that the counter comes to along a text. -/
def peakFrom (level : Nat) : List Char -> Nat
  | [] => level
  | character :: rest => max level (peakFrom (levelBehind level character) rest)

/-! ## The highest of all levels -/

theorem foldl_take_le_peakFrom (level : Nat) (source : List Char) (place : Nat) :
    (source.take place).foldl levelBehind level ≤ peakFrom level source := by
  induction source generalizing level place with
  | nil =>
      rw [List.take_nil]
      exact Nat.le_refl level
  | cons character rest inductionHypothesis =>
      cases place with
      | zero => exact Nat.le_max_left _ _
      | succ place =>
          exact Nat.le_trans (inductionHypothesis _ place) (Nat.le_max_right _ _)

theorem exists_foldl_take_eq_peakFrom (level : Nat) (source : List Char) :
    Exists fun place => place ≤ source.length ∧
      (source.take place).foldl levelBehind level = peakFrom level source := by
  induction source generalizing level with
  | nil => exact ⟨0, Nat.le_refl 0, rfl⟩
  | cons character rest inductionHypothesis =>
      by_cases highest : peakFrom (levelBehind level character) rest ≤ level
      · exact ⟨0, Nat.zero_le _, (Nat.max_eq_left highest).symm⟩
      · rcases inductionHypothesis (levelBehind level character) with ⟨place, inside, reached⟩
        refine ⟨place + 1, Nat.succ_le_succ inside, ?_⟩
        rw [List.take_succ_cons, List.foldl_cons, reached, peakFrom,
          Nat.max_eq_right (Nat.le_of_not_le highest)]

theorem le_peakFrom (level : Nat) (source : List Char) : level ≤ peakFrom level source :=
  foldl_take_le_peakFrom level source 0

/-! ## Levels along a tree -/

theorem peakFrom_cons_of_stays {level : Nat} {character : Char}
    (stays : levelBehind level character = level) (rest : List Char) :
    peakFrom level (character :: rest) = peakFrom level rest := by
  rw [peakFrom, stays, Nat.max_eq_right (le_peakFrom level rest)]

theorem levelBehind_of_leaf {character : Char} (notStart : character ≠ '[')
    (notStop : character ≠ ']') (level : Nat) : levelBehind level character = level := by
  rw [levelBehind, if_neg notStart, if_neg notStop]

/-- A closing bracket that ends nothing leaves the counter at zero. -/
theorem levelBehind_zero {character : Char} (notStart : character ≠ '[') :
    levelBehind 0 character = 0 := by
  rw [levelBehind, if_neg notStart, Nat.zero_sub, ite_self]

/-- A loop is left at the level where it was entered, and its body is one level up. -/
theorem peakFrom_loop {level depth : Nat} {body rest : List Char}
    (inside : peakFrom (level + 1) (body ++ ']' :: rest) =
      max (level + 1 + depth) (peakFrom (level + 1) (']' :: rest))) :
    peakFrom level ('[' :: (body ++ ']' :: rest)) = max (level + (depth + 1)) (peakFrom level rest) := by
  have entered : levelBehind level '[' = level + 1 := rfl
  have left : levelBehind (level + 1) ']' = level := rfl
  have above := le_peakFrom level rest
  rw [peakFrom, entered, inside, peakFrom, left]
  omega

theorem Enclosed.peakFrom_append {row : Tree} (enclosed : row.Enclosed) (level : Nat)
    (back : List Char) :
    peakFrom level (row.text ++ back) = max (level + row.height) (peakFrom level back) := by
  induction row generalizing level back with
  | nil => exact (Nat.max_eq_right (le_peakFrom level back)).symm
  | leaf characters rest inductionHypothesis =>
      rcases enclosed with ⟨⟨character, single, notStart, notStop⟩, later⟩
      rw [text, single, List.append_assoc, List.singleton_append,
        peakFrom_cons_of_stays (levelBehind_of_leaf notStart notStop level),
        inductionHypothesis later, height]
  | loop body rest bodyHypothesis restHypothesis =>
      rw [text, List.cons_append, List.append_assoc, List.cons_append,
        peakFrom_loop (bodyHypothesis enclosed.1 (level + 1) _), restHypothesis enclosed.2, height]
      omega

/-- At the root the counter is at zero, and only there a closing bracket is a leaf. -/
theorem Canonical.peakFrom_eq {tree : Tree} (canonical : tree.Canonical) :
    peakFrom 0 tree.text = tree.height := by
  induction tree with
  | nil => rfl
  | leaf characters rest inductionHypothesis =>
      rcases canonical with ⟨⟨character, single, notStart⟩, later⟩
      rw [text, single, List.singleton_append, peakFrom_cons_of_stays (levelBehind_zero notStart),
        inductionHypothesis later, height]
  | loop body rest _ restHypothesis =>
      rw [text, peakFrom_loop (canonical.1.peakFrom_append (0 + 1) _), restHypothesis canonical.2,
        height, Nat.zero_add]

/-! ## Numbers of nodes along a tree -/

theorem Canonical.loopCount_eq {tree : Tree} (canonical : tree.Canonical) :
    tree.loopCount = tree.text.count '[' := by
  induction tree with
  | nil => rfl
  | leaf characters rest inductionHypothesis =>
      rcases canonical with ⟨⟨character, single, notStart⟩, later⟩
      rw [loopCount, text, single, List.singleton_append, List.count_cons_of_ne notStart,
        inductionHypothesis later]
  | loop body rest bodyHypothesis restHypothesis =>
      rw [loopCount, text, List.count_cons_self, List.count_append,
        List.count_cons_of_ne (by decide), bodyHypothesis canonical.1.canonical,
        restHypothesis canonical.2]

theorem Canonical.length_text {tree : Tree} (canonical : tree.Canonical) :
    tree.leafCount + 2 * tree.loopCount = tree.text.length := by
  induction tree with
  | nil => rfl
  | leaf characters rest inductionHypothesis =>
      rcases canonical with ⟨⟨character, single, _⟩, later⟩
      have behind := inductionHypothesis later
      rw [leafCount, loopCount, text, single, List.singleton_append, List.length_cons]
      omega
  | loop body rest bodyHypothesis restHypothesis =>
      have inside := bodyHypothesis canonical.1.canonical
      have behind := restHypothesis canonical.2
      rw [leafCount, loopCount, text, List.length_cons, List.length_append, List.length_cons]
      omega

/-- Of a text that can be read, the loops are as many as its opening brackets, the leaves
are all its characters but the brackets of loops, and the depth is the highest level to
which a counter of open loops comes that never goes below zero. -/
theorem read_text_measures {source : List Char} {tree : Tree} (reads : read source = .ok tree) :
    tree.census.loops = source.count '[' ∧
    tree.census.leaves + 2 * tree.census.loops = source.length ∧
    (forall place, levelAt source place ≤ tree.depth) ∧
    Exists fun place => place ≤ source.length ∧ levelAt source place = tree.depth := by
  rcases (read_eq_ok_iff source tree).mp reads with ⟨canonical, same⟩
  have peak : peakFrom 0 source = tree.depth := by
    rw [same, canonical.peakFrom_eq, depth_eq_height]
  rw [census_eq, ← peak]
  refine ⟨?_, ?_, foldl_take_le_peakFrom 0 source, exists_foldl_take_eq_peakFrom 0 source⟩
  · rw [same, canonical.loopCount_eq]
  · rw [same, canonical.length_text]

/-- The closing brackets in front do not hide how deep the loops behind them are. -/
theorem measures_behind_stray_brackets :
    read [']', ']', '[', 'x', '[', ']', ']', '+'] =
        .ok (leaf [']'] (leaf [']'] (loop (leaf ['x'] (loop nil nil)) (leaf ['+'] nil)))) ∧
      (leaf [']'] (leaf [']'] (loop (leaf ['x'] (loop nil nil)) (leaf ['+'] nil)))).census.loops =
        2 ∧
      levelAt [']', ']', '[', 'x', '[', ']', ']', '+'] 5 = 2 ∧
      2 ≤ (leaf [']'] (leaf [']'] (loop (leaf ['x'] (loop nil nil)) (leaf ['+'] nil)))).depth := by
  have canonical :
      (leaf [']'] (leaf [']'] (loop (leaf ['x'] (loop nil nil)) (leaf ['+'] nil)))).Canonical :=
    ⟨⟨']', rfl, by decide⟩, ⟨']', rfl, by decide⟩,
      ⟨⟨'x', rfl, by decide, by decide⟩, trivial, trivial⟩, ⟨'+', rfl, by decide⟩, trivial⟩
  have reads : read [']', ']', '[', 'x', '[', ']', ']', '+'] =
      .ok (leaf [']'] (leaf [']'] (loop (leaf ['x'] (loop nil nil)) (leaf ['+'] nil)))) :=
    read_text canonical
  rcases read_text_measures reads with ⟨loops, _, above, _⟩
  exact ⟨reads, loops, rfl, above 5⟩

end Tree
end LoopTape
