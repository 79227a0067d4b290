import LoopTape.Proofs.Machine.Strays

namespace LoopTape
namespace Machine

/-!
# Runs of texts and runs of trees

A machine runs a text by jumping, and a tree is run by going into its loops.  If
the tree was read from the text, both runs end in the same way: with the same
state and the same fault, or not at all.

Each direction is an induction along the row that is placed at the counter, and
inside a loop an induction over its rounds.  From the tree to the text it is
enough that the run of the text goes on from every piece.  In the other
direction the tree has to be given a number of rounds, and the number of steps
that the machine takes is enough: a round costs at least the step of its closing
bracket, so there are never more rounds than steps.
-/

open LoopTape.Bracket

variable {machine : Machine} {state : State} {part finish : Finish}

section Loop

variable {body : Tree} {start stop depth : Nat}

theorem state_at_counter {counter : Nat} (stands : state.counter = counter) :
    { state with counter := counter } = state := by
  rw [← stands]

/-- The rounds of a loop, if its body is known to be run like its text. -/
theorem ends_of_runRounds (encloses : Encloses machine.source start stop)
    (extent : stop = start + 1 + body.text.length)
    (bodyEnds : forall state part finish, state.counter = start + 1 ->
      runTree machine.limit depth body state = some part -> machine.EndsAfter part finish ->
      machine.Ends state finish)
    {rounds : Nat} (stands : state.counter = start + 1)
    (ran : runRounds machine.limit (runTree machine.limit depth body) start stop rounds state =
      some part)
    (later : machine.EndsAfter part finish) : machine.Ends state finish := by
  induction rounds generalizing state with
  | zero => cases ran
  | succ rounds inductionHypothesis =>
      rw [runRounds_succ, state_at_counter stands] at ran
      rcases Option.bind_eq_some_iff.mp ran with ⟨first, bodyRan, joined⟩
      apply bodyEnds state first finish stands bodyRan
      apply endsAfter_of_andThen joined later
      intro left passes closing
      rw [passes] at bodyRan
      have reached : left.counter = stop := by
        rw [runTree_counter_behind bodyRan rfl, stands, extent]
      apply ends_of_answer (step_bracket encloses (Or.inr reached))
      apply endsAfter_of_andThen closing later
      intro passed bracket onward
      by_cases zero : passed.tape.cell = 0
      · rw [if_pos zero] at onward
        cases onward
        exact later
      · rw [if_neg zero] at onward
        have again : passed.counter = start + 1 := by
          rw [passBracket_counter bracket, if_neg zero]
        exact inductionHypothesis again onward

/-- As many rounds as there are steps are enough. -/
theorem begins_runRounds (encloses : Encloses machine.source start stop)
    (extent : stop = start + 1 + body.text.length)
    (bodyBegins : forall state allowed, state.counter = start + 1 ->
      machine.runFor allowed state = some finish -> allowed ≤ depth ->
      machine.Begins (runTree machine.limit depth body state) allowed finish)
    {rounds allowed : Nat} (stands : state.counter = start + 1)
    (finished : machine.runFor allowed state = some finish) (shallow : allowed ≤ depth)
    (enough : allowed ≤ rounds) :
    machine.Begins (runRounds machine.limit (runTree machine.limit depth body) start stop rounds
      state) allowed finish := by
  induction rounds generalizing state allowed with
  | zero =>
      rw [Nat.le_zero.mp enough] at finished
      cases finished
  | succ rounds inductionHypothesis =>
      rw [runRounds_succ, state_at_counter stands]
      apply Begins.bind (bodyBegins state allowed stands finished shallow)
      intro left fewer bodyRan bounded continued
      have reached : left.counter = stop := by
        rw [runTree_counter_behind bodyRan rfl, stands, extent]
      rcases andThen_of_answer (step_bracket encloses (Or.inr reached)) continued with
        ⟨less, within, resumed, strictly⟩
      refine Begins.mono (begins_of_andThen resumed ?_) within
      intro passed bracket onward
      by_cases zero : passed.tape.cell = 0
      · rw [if_pos zero]
        exact ⟨_, less, rfl, Nat.le_refl _, onward⟩
      · rw [if_neg zero]
        have again : passed.counter = start + 1 := by
          rw [passBracket_counter bracket, if_neg zero]
        have inside : passed.counter < machine.source.length := by
          have ordered := encloses.ordered
          have last := encloses.inside
          omega
        rw [bracket] at strictly
        have saved : less < fewer := strictly inside
        exact inductionHypothesis again onward (by omega) (by omega)

end Loop

/-! ## From the tree to the text -/

theorem ends_of_runTree {row : Tree} {rounds : Nat}
    (placed : row.Placed machine.source state.counter)
    (ran : runTree machine.limit rounds row state = some part)
    (later : machine.EndsAfter part finish) : machine.Ends state finish := by
  induction row generalizing state part finish with
  | nil =>
      cases ran
      exact later
  | leaf characters rest inductionHypothesis =>
      rcases placed with ⟨⟨character, single, found, notStart, alone⟩, behind⟩
      rw [single, runTree_leaf] at ran
      apply ends_of_answer (step_leaf found notStart alone)
      apply endsAfter_of_andThen ran later
      intro left passes onward
      have reached : left.counter = state.counter + 1 := runLeaf_counter passes
      exact inductionHypothesis (reached ▸ behind) onward later
  | loop body rest bodyHypothesis restHypothesis =>
      rcases placed with ⟨encloses, inside, behind⟩
      rw [runTree_loop] at ran
      apply ends_of_answer (step_bracket encloses (Or.inl rfl))
      apply endsAfter_of_andThen ran later
      intro passed bracket onward
      by_cases zero : passed.tape.cell = 0
      · rw [if_pos zero] at onward
        have reached := passBracket_counter bracket
        rw [if_pos zero] at reached
        exact restHypothesis (reached ▸ behind) onward later
      · rw [if_neg zero] at onward
        have reached := passBracket_counter bracket
        rw [if_neg zero] at reached
        rcases Option.bind_eq_some_iff.mp onward with ⟨ended, rounded, joined⟩
        refine ends_of_runRounds encloses rfl ?_ reached rounded ?_
        · intro entered first _ stands
          exact bodyHypothesis (stands ▸ inside)
        · apply endsAfter_of_andThen joined later
          intro left passes restRan
          rw [passes] at rounded
          exact restHypothesis (runRounds_counter_behind rounded rfl ▸ behind) restRan later

/-! ## From the text to the tree -/

theorem begins_runTree {row : Tree} {rounds allowed : Nat}
    (placed : row.Placed machine.source state.counter)
    (finished : machine.runFor allowed state = some finish) (enough : allowed ≤ rounds) :
    machine.Begins (runTree machine.limit rounds row state) allowed finish := by
  induction row generalizing state allowed with
  | nil => exact ⟨_, allowed, rfl, Nat.le_refl _, finished⟩
  | leaf characters rest inductionHypothesis =>
      rcases placed with ⟨⟨character, single, found, notStart, alone⟩, behind⟩
      rw [single, runTree_leaf]
      rcases andThen_of_answer (step_leaf found notStart alone) finished with
        ⟨fewer, bounded, resumed, _⟩
      refine Begins.mono (begins_of_andThen resumed ?_) bounded
      intro left passes continued
      have reached : left.counter = state.counter + 1 := runLeaf_counter passes
      exact inductionHypothesis (reached ▸ behind) continued (by omega)
  | loop body rest bodyHypothesis restHypothesis =>
      rcases placed with ⟨encloses, inside, behind⟩
      rw [runTree_loop]
      rcases andThen_of_answer (step_bracket encloses (Or.inl rfl)) finished with
        ⟨fewer, bounded, resumed, _⟩
      refine Begins.mono (begins_of_andThen resumed ?_) bounded
      intro passed bracket continued
      by_cases zero : passed.tape.cell = 0
      · rw [if_pos zero]
        have reached := passBracket_counter bracket
        rw [if_pos zero] at reached
        exact restHypothesis (reached ▸ behind) continued (by omega)
      · rw [if_neg zero]
        have reached := passBracket_counter bracket
        rw [if_neg zero] at reached
        have few : fewer ≤ rounds := Nat.le_trans bounded enough
        refine Begins.bind (begins_runRounds encloses rfl ?_ reached continued few few) ?_
        · intro entered steps stands
          exact bodyHypothesis (stands ▸ inside)
        · intro left less ended within onward
          exact restHypothesis (runRounds_counter_behind ended rfl ▸ behind) onward
            (Nat.le_trans within few)

/-! ## What was read -/

/-- Where a row stands and the text ends behind it, both runs end alike. -/
theorem ends_iff_runTree {row : Tree} (placed : row.Placed machine.source state.counter)
    (last : machine.source.length ≤ state.counter + row.text.length) :
    machine.Ends state finish ↔
      Exists fun rounds => runTree machine.limit rounds row state = some finish := by
  have complete : forall rounds part, runTree machine.limit rounds row state = some part ->
      part.fault = none -> machine.source.length ≤ part.state.counter := by
    intro rounds part ran came
    rw [runTree_counter_behind ran came]
    exact last
  constructor
  · rintro ⟨allowed, finished⟩
    rcases begins_runTree placed finished (Nat.le_refl allowed) with
      ⟨part, fewer, ran, _, resumed⟩
    have same : part = finish := (endsAfter_iff_eq (complete allowed part ran)).mp ⟨fewer, resumed⟩
    exact ⟨allowed, same ▸ ran⟩
  · rintro ⟨rounds, ran⟩
    exact ends_of_runTree placed ran ((endsAfter_iff_eq (complete rounds finish ran)).mpr rfl)

theorem execute_iff_runTree {source : List Char} {tree : Tree}
    (reads : Tree.read source = .ok tree) (limit : Option Nat) (finish : Finish) :
    (Exists fun patience => (Machine.mk source limit).execute patience = some finish) ↔
      Exists fun rounds => runTree limit rounds tree .fresh = some finish := by
  have placed := Tree.placed_of_read reads
  rcases (Tree.read_eq_ok_iff source tree).mp reads with ⟨_, same⟩
  have last : source.length ≤ State.fresh.counter + tree.text.length := by
    rw [same]
    exact Nat.le_add_left _ _
  exact (exists_run_iff_ends ⟨source, limit⟩ .fresh finish).trans (ends_iff_runTree placed last)

/-- A text that can be read and the tree that was read from it are run alike.
How many rounds the tree is given does not matter once they are enough.  When
the run reports a bracket without a partner, this is a closing bracket and stands
as a leaf in the row at the root. -/
theorem text_and_tree_run_alike {source : List Char} {tree : Tree}
    (reads : Tree.read source = .ok tree) (limit : Option Nat) :
    (forall finish,
      (Exists fun patience => (Machine.mk source limit).execute patience = some finish) ↔
        Exists fun rounds => runTree limit rounds tree .fresh = some finish) ∧
    ((forall patience, (Machine.mk source limit).execute patience = none) ↔
      forall rounds, runTree limit rounds tree .fresh = none) ∧
    (forall rounds more finish, runTree limit rounds tree .fresh = some finish -> rounds ≤ more ->
      runTree limit more tree .fresh = some finish) ∧
    forall patience left position,
      (Machine.mk source limit).execute patience = some ⟨left, some (.unmatched position)⟩ ->
        source[position]? = some ']' ∧
          Exists fun before : Tree => Exists fun after : Tree =>
            tree = before ++ .leaf [']'] after ∧ position = before.text.length := by
  have alike := execute_iff_runTree reads limit
  refine ⟨alike, ?_, fun _ _ _ => runTree_mono, ?_⟩
  · constructor
    · intro never rounds
      cases ran : runTree limit rounds tree .fresh with
      | none => rfl
      | some finish =>
          rcases (alike finish).mpr ⟨rounds, ran⟩ with ⟨patience, finished⟩
          rw [never patience] at finished
          cases finished
    · intro never patience
      cases finished : (Machine.mk source limit).execute patience with
      | none => rfl
      | some finish =>
          rcases (alike finish).mp ⟨patience, finished⟩ with ⟨rounds, ran⟩
          rw [never rounds] at ran
          cases ran
  · intro patience left position finished
    rcases (alike _).mp ⟨patience, finished⟩ with ⟨rounds, ran⟩
    rcases (Tree.read_eq_ok_iff source tree).mp reads with ⟨canonical, same⟩
    rcases exists_stray_of_unmatchedAt canonical ran rfl with ⟨before, after, split, reached⟩
    have here : position = before.text.length := reached.trans (Nat.zero_add _)
    refine ⟨?_, before, after, split, here⟩
    rw [same, split, Tree.text_append, here, List.getElem?_append_right (Nat.le_refl _),
      Nat.sub_self]
    rfl

theorem stray_bracket_behind_loop :
    Tree.read ['[', ']', '+', ']'] = .ok (.loop .nil (.leaf ['+'] (.leaf [']'] .nil))) ∧
      (Exists fun patience => (Machine.mk ['[', ']', '+', ']'] none).execute patience =
        some ⟨⟨Tape.blank.increment, 3, #[], 3⟩, some (.unmatched 3)⟩) ∧
      (['[', ']', '+', ']'] : List Char)[3]? = some ']' ∧
      Exists fun before : Tree => Exists fun after : Tree =>
        Tree.loop .nil (.leaf ['+'] (.leaf [']'] .nil)) = before ++ .leaf [']'] after ∧
          3 = before.text.length := by
  have canonical : (Tree.loop .nil (.leaf ['+'] (.leaf [']'] .nil))).Canonical :=
    ⟨trivial, ⟨'+', rfl, by decide⟩, ⟨']', rfl, by decide⟩, trivial⟩
  have reads : Tree.read ['[', ']', '+', ']'] =
      .ok (.loop .nil (.leaf ['+'] (.leaf [']'] .nil))) := Tree.read_text canonical
  have zero : Tape.blank.cell = 0 := fresh_cell
  have one : Tape.blank.increment.cell = 1 := by
    rw [Tape.increment, Tape.cell_modify, zero]
    rfl
  have ran : runTree none 1 (.loop .nil (.leaf ['+'] (.leaf [']'] .nil))) .fresh =
      some ⟨⟨Tape.blank.increment, 3, #[], 3⟩, some (.unmatched 3)⟩ := by
    simp [runTree, runLeaf, charge, budgetFault?, State.fresh, zero, one, Instruction.ofText?,
      Instruction.ofChar?, jumps, effect, Tree.text]
  rcases text_and_tree_run_alike reads none with ⟨alike, _, _, stray⟩
  have finished := (alike _).mpr ⟨1, ran⟩
  rcases finished with ⟨patience, ends⟩
  exact ⟨reads, ⟨patience, ends⟩, stray patience _ 3 ends⟩

end Machine
end LoopTape
