import LoopTape.Proofs.Tree.Measures
import LoopTape.Proofs.Tree.Nodes

namespace LoopTape
namespace Tree

/-!
# Rows taken from a worklist

The measures of a tree are taken with a list of pending rows.  Each round takes the row on top
and puts the bodies of its loops there, so the rows come in an order of their own: the body of
the last loop of a row comes first, and everything inside it comes before the loop in front.

What a round does with its row is not the same for the two measures, and one of them has a
level beside each row.  The rows and their order are the same.  To see that none is missed and
none is met twice the rows need names, since two bodies may be equal as trees.  The name of a
row is its address, the places of the loops that one has to enter to come to it.  A worklist of
rows with their addresses is run once, and the two worklists are views of it.
-/

/-! ## Worklists -/

/-- A worklist starts with a total, takes the given entries in this order, each time the one
on top, and ends with a result because nothing is pending any more. -/
inductive Drained {Total Entry : Type} (add : Total -> Entry -> Total)
    (put : Entry -> List Entry -> List Entry) :
    Total -> List Entry -> List Entry -> Total -> Prop where
  | empty (total : Total) : Drained add put total [] [] total
  | taken {total result : Total} {entry : Entry} {pending later : List Entry}
      (onward : Drained add put (add total entry) (put entry pending) later result) :
      Drained add put total (entry :: pending) (entry :: later) result

/-- A worklist is run in the same way when only a view of its entries is looked at. -/
theorem Drained.map {Total Entry Other : Type} {add : Total -> Other -> Total}
    {put : Entry -> List Entry -> List Entry} {putOther : Other -> List Other -> List Other}
    (view : Entry -> Other)
    (puts : forall entry pending,
      (put entry pending).map view = putOther (view entry) (pending.map view))
    {total result : Total} {pending taken : List Entry}
    (drained : Drained (fun sum entry => add sum (view entry)) put total pending taken result) :
    Drained add putOther total (pending.map view) (taken.map view) result := by
  induction drained with
  | empty total => exact .empty total
  | taken _ inductionHypothesis =>
      rw [puts] at inductionHypothesis
      exact .taken inductionHypothesis

/-- Count the nodes of one row. -/
def Census.addRow (counted : Census) (row : Tree) : Census :=
  ⟨counted.leaves + row.rowLeaves, counted.loops + row.rowLoops⟩

/-- Look at the level of one row. -/
def deepen (deepest : Nat) (entry : Tree × Nat) : Nat := max deepest entry.2

/-- Put the bodies of a row on top, each one level deeper than the row. -/
def putDeeper (entry : Tree × Nat) (pending : List (Tree × Nat)) : List (Tree × Nat) :=
  entry.1.leveledOnto (entry.2 + 1) pending

theorem Drained.eq_censusFrom {counted result : Census} {rows taken : List Tree}
    (drained : Drained Census.addRow bodiesOnto counted rows taken result) :
    result = censusFrom counted rows := by
  induction drained with
  | empty counted => rw [censusFrom]
  | taken _ inductionHypothesis =>
      rw [censusFrom]
      exact inductionHypothesis

theorem Drained.eq_depthFrom {deepest result : Nat} {rows taken : List (Tree × Nat)}
    (drained : Drained deepen putDeeper deepest rows taken result) :
    result = depthFrom deepest rows := by
  induction drained with
  | empty deepest => rw [depthFrom]
  | taken _ inductionHypothesis =>
      rw [depthFrom]
      exact inductionHypothesis

/-! ## Addresses -/

/-- The row at an address: from the root on, the loop at each place is entered. -/
def rowAt? : Tree -> List Nat -> Option Tree
  | row, [] => some row
  | row, place :: inside =>
    match row.nodes[place]? with
    | some (.loop body) => body.rowAt? inside
    | _ => none

/-- All rows inside a row, with their addresses, when the row has the given address itself
and stands behind as many nodes as `place` says.  Later loops come first. -/
def rowsBelow (address : List Nat) (place : Nat) : Tree -> List (List Nat × Tree)
  | nil => []
  | leaf _ rest => rest.rowsBelow address (place + 1)
  | loop body rest =>
    rest.rowsBelow address (place + 1) ++
      (address ++ [place], body) :: body.rowsBelow (address ++ [place]) 0

/-- A row and all rows inside it. -/
def rowsFrom (entry : List Nat × Tree) : List (List Nat × Tree) :=
  entry :: entry.2.rowsBelow entry.1 0

theorem rowAt?_loop_zero (body rest : Tree) (inside : List Nat) :
    (loop body rest).rowAt? (0 :: inside) = body.rowAt? inside :=
  rfl

variable {address found : List Nat} {place : Nat} {row inner : Tree}

theorem length_rowsBelow (address : List Nat) (place : Nat) (row : Tree) :
    (row.rowsBelow address place).length = row.loopCount := by
  induction row generalizing address place with
  | nil => rfl
  | leaf characters rest inductionHypothesis => exact inductionHypothesis address (place + 1)
  | loop body rest bodyHypothesis restHypothesis =>
      rw [rowsBelow, List.length_append, List.length_cons, bodyHypothesis, restHypothesis,
        loopCount]
      omega

/-- The rows inside a row are those at the addresses that go through one of its nodes. -/
theorem mem_rowsBelow_iff :
    (found, inner) ∈ row.rowsBelow address place ↔
      Exists fun further => Exists fun inside =>
        found = address ++ (place + further) :: inside ∧
          row.rowAt? (further :: inside) = some inner := by
  induction row generalizing address place with
  | nil =>
      constructor
      · intro impossible
        cases impossible
      · rintro ⟨further, inside, _, impossible⟩
        cases impossible
  | leaf characters rest inductionHypothesis =>
      rw [rowsBelow, inductionHypothesis]
      constructor
      · rintro ⟨further, inside, same, reached⟩
        refine ⟨further + 1, inside, ?_, reached⟩
        rw [same, Nat.add_assoc, Nat.add_comm 1]
      · rintro ⟨_ | further, inside, same, reached⟩
        · cases reached
        · refine ⟨further, inside, ?_, reached⟩
          rw [same, Nat.add_assoc, Nat.add_comm 1]
  | loop body rest bodyHypothesis restHypothesis =>
      rw [rowsBelow, List.mem_append, List.mem_cons, restHypothesis, bodyHypothesis]
      constructor
      · rintro (⟨further, inside, same, reached⟩ | here | ⟨further, inside, same, reached⟩)
        · refine ⟨further + 1, inside, ?_, reached⟩
          rw [same, Nat.add_assoc, Nat.add_comm 1]
        · cases here
          exact ⟨0, [], rfl, rfl⟩
        · refine ⟨0, further :: inside, ?_, reached⟩
          rw [same, Nat.zero_add, List.append_assoc]
          rfl
      · rintro ⟨_ | further, inside, same, reached⟩
        · rw [rowAt?_loop_zero] at reached
          cases inside with
          | nil =>
              cases reached
              exact Or.inr (Or.inl (by rw [same, Nat.add_zero]))
          | cons next inside =>
              refine Or.inr (Or.inr ⟨next, inside, ?_, reached⟩)
              rw [same, Nat.zero_add, List.append_assoc]
              rfl
        · refine Or.inl ⟨further, inside, ?_, reached⟩
          rw [same, Nat.add_assoc, Nat.add_comm 1]

theorem mem_rowsFrom_root_iff {tree : Tree} :
    (address, row) ∈ rowsFrom ([], tree) ↔ tree.rowAt? address = some row := by
  rw [rowsFrom, List.mem_cons, mem_rowsBelow_iff]
  constructor
  · rintro (here | ⟨further, inside, same, reached⟩)
    · cases here
      rfl
    · rw [List.nil_append, Nat.zero_add] at same
      rw [same]
      exact reached
  · intro reached
    cases address with
    | nil =>
        cases reached
        exact Or.inl rfl
    | cons further inside =>
        refine Or.inr ⟨further, inside, ?_, reached⟩
        rw [Nat.zero_add]
        rfl

theorem exists_of_mem_map_rowsBelow (member : found ∈ (row.rowsBelow address place).map Prod.fst) :
    Exists fun further => Exists fun inside => found = address ++ (place + further) :: inside := by
  rcases List.mem_map.mp member with ⟨⟨other, inner⟩, listed, rfl⟩
  rcases mem_rowsBelow_iff.mp listed with ⟨further, inside, same, _⟩
  exact ⟨further, inside, same⟩

/-- No two rows have the same address. -/
theorem nodup_rowsBelow (address : List Nat) (place : Nat) (row : Tree) :
    ((row.rowsBelow address place).map Prod.fst).Nodup := by
  induction row generalizing address place with
  | nil => exact List.nodup_nil
  | leaf characters rest inductionHypothesis => exact inductionHypothesis address (place + 1)
  | loop body rest bodyHypothesis restHypothesis =>
      rw [rowsBelow, List.map_append, List.map_cons, List.nodup_append]
      refine ⟨restHypothesis _ _, List.nodup_cons.mpr ⟨?_, bodyHypothesis _ _⟩, ?_⟩
      · intro member
        rcases exists_of_mem_map_rowsBelow member with ⟨further, inside, same⟩
        have lengths := congrArg List.length same
        simp only [List.length_append, List.length_cons, List.length_nil] at lengths
        omega
      · intro later behind other inBody same
        rcases exists_of_mem_map_rowsBelow behind with ⟨further, inside, passed⟩
        -- Addresses in the body go through this place, addresses behind it through a later one.
        have through : Exists fun inside => other = address ++ place :: inside := by
          rcases List.mem_cons.mp inBody with here | deeper
          · exact ⟨[], here⟩
          · rcases exists_of_mem_map_rowsBelow deeper with ⟨next, inside, entered⟩
            exact ⟨_, entered.trans (List.append_assoc _ _ _)⟩
        rcases through with ⟨otherInside, entered⟩
        rw [passed, entered] at same
        have places := (List.cons.inj (List.append_cancel_left same)).1
        omega

theorem nodup_rowsFrom_root (tree : Tree) : ((rowsFrom ([], tree)).map Prod.fst).Nodup := by
  rw [rowsFrom, List.map_cons, List.nodup_cons]
  refine ⟨?_, nodup_rowsBelow [] 0 tree⟩
  intro member
  rcases exists_of_mem_map_rowsBelow member with ⟨further, inside, impossible⟩
  cases impossible

/-! ## All rows of a tree -/

/-- The bodies of a row, last first, with their addresses, in front of other rows. -/
def addressedOnto (address : List Nat) (place : Nat) :
    Tree -> List (List Nat × Tree) -> List (List Nat × Tree)
  | nil, pending => pending
  | leaf _ rest, pending => rest.addressedOnto address (place + 1) pending
  | loop body rest, pending =>
    rest.addressedOnto address (place + 1) ((address ++ [place], body) :: pending)

/-- Put the bodies of a row on top, with their addresses. -/
def putAddressed (entry : List Nat × Tree) (pending : List (List Nat × Tree)) :
    List (List Nat × Tree) :=
  entry.2.addressedOnto entry.1 0 pending

/-- A row as it stands in the worklist for the depth: its level is the length of its address. -/
def leveled (entry : List Nat × Tree) : Tree × Nat := (entry.2, entry.1.length)

theorem map_snd_addressedOnto (address : List Nat) (place : Nat) (row : Tree)
    (pending : List (List Nat × Tree)) :
    (row.addressedOnto address place pending).map Prod.snd =
      row.bodiesOnto (pending.map Prod.snd) := by
  induction row generalizing place pending with
  | nil => rfl
  | leaf characters rest inductionHypothesis => exact inductionHypothesis (place + 1) pending
  | loop body rest _ inductionHypothesis => exact inductionHypothesis (place + 1) _

theorem map_leveled_addressedOnto (address : List Nat) (place : Nat) (row : Tree)
    (pending : List (List Nat × Tree)) :
    (row.addressedOnto address place pending).map leveled =
      row.leveledOnto (address.length + 1) (pending.map leveled) := by
  induction row generalizing place pending with
  | nil => rfl
  | leaf characters rest inductionHypothesis => exact inductionHypothesis (place + 1) pending
  | loop body rest _ inductionHypothesis =>
      rw [addressedOnto, inductionHypothesis, List.map_cons, leveled, List.length_append,
        List.length_singleton, leveledOnto]

theorem flatMap_addressedOnto (address : List Nat) (place : Nat) (row : Tree)
    (pending : List (List Nat × Tree)) :
    (row.addressedOnto address place pending).flatMap rowsFrom =
      row.rowsBelow address place ++ pending.flatMap rowsFrom := by
  induction row generalizing place pending with
  | nil => rfl
  | leaf characters rest inductionHypothesis => exact inductionHypothesis (place + 1) pending
  | loop body rest _ inductionHypothesis =>
      rw [addressedOnto, inductionHypothesis, List.flatMap_cons, rowsBelow, List.append_assoc]
      rfl

/-- A worklist of rows takes each pending row and then all rows inside it before it comes to
the next. -/
theorem drained_rowsFrom {Total : Type} (add : Total -> List Nat × Tree -> Total) (total : Total)
    (pending : List (List Nat × Tree)) :
    Drained add putAddressed total pending (pending.flatMap rowsFrom)
      ((pending.flatMap rowsFrom).foldl add total) := by
  induction known : pendingExtent (pending.map Prod.snd) using Nat.strongRecOn
    generalizing total pending with
  | ind extent inductionHypothesis =>
      cases pending with
      | nil => exact .empty total
      | cons entry pending =>
          rcases entry with ⟨address, row⟩
          have less : pendingExtent ((row.addressedOnto address 0 pending).map Prod.snd) < extent := by
            rw [map_snd_addressedOnto, ← known]
            exact pendingExtent_bodiesOnto_lt row (pending.map Prod.snd)
          have onward := inductionHypothesis _ less (add total (address, row)) _ rfl
          rw [flatMap_addressedOnto] at onward
          exact .taken onward

theorem drained_census (tree : Tree) :
    Drained Census.addRow bodiesOnto ⟨0, 0⟩ [tree] ((rowsFrom ([], tree)).map Prod.snd)
      tree.census := by
  have puts : forall entry pending,
      (putAddressed entry pending).map Prod.snd = entry.2.bodiesOnto (pending.map Prod.snd) :=
    fun entry pending => map_snd_addressedOnto entry.1 0 entry.2 pending
  have drained : Drained Census.addRow bodiesOnto ⟨0, 0⟩ [tree] _ _ :=
    (drained_rowsFrom _ _ [([], tree)]).map Prod.snd puts
  rw [drained.eq_censusFrom, List.flatMap_singleton] at drained
  exact drained

theorem drained_depth (tree : Tree) :
    Drained deepen putDeeper 0 [(tree, 0)] ((rowsFrom ([], tree)).map leveled) tree.depth := by
  have puts : forall entry pending,
      (putAddressed entry pending).map leveled = putDeeper (leveled entry) (pending.map leveled) :=
    fun entry pending => map_leveled_addressedOnto entry.1 0 entry.2 pending
  have drained : Drained deepen putDeeper 0 [(tree, 0)] _ _ :=
    (drained_rowsFrom _ _ [([], tree)]).map leveled puts
  rw [drained.eq_depthFrom, List.flatMap_singleton] at drained
  exact drained

/-- The two measures by pending rows are the ones by structural recursion: the leaves and the
loops of all nodes added up, and one level more than the deepest body, or none when there is
no body.  Both worklists come to an end.  They take the same rows in the same order, every row
of the tree once, and so as many as there are loops and one more for the root. -/
theorem worklists_take_each_row_once (tree : Tree) :
    (tree.census = ⟨tree.leafCount, tree.loopCount⟩ ∧ tree.depth = tree.height) ∧
    tree.leafCount = (tree.nodes.map (Node.either (fun _ => 1) leafCount)).sum ∧
    tree.loopCount =
      (tree.nodes.map (Node.either (fun _ => 0) (fun body => body.loopCount + 1))).sum ∧
    tree.height =
      (tree.nodes.map (Node.either (fun _ => 0) (fun body => body.height + 1))).foldr max 0 ∧
    Exists fun taken : List (List Nat × Tree) =>
      Drained Census.addRow bodiesOnto ⟨0, 0⟩ [tree] (taken.map Prod.snd) tree.census ∧
      Drained deepen putDeeper 0 [(tree, 0)] (taken.map leveled) tree.depth ∧
      taken.length = tree.loopCount + 1 ∧
      (taken.map Prod.fst).Nodup ∧
      forall address row, (address, row) ∈ taken ↔ tree.rowAt? address = some row := by
  refine ⟨⟨census_eq tree, depth_eq_height tree⟩, leafCount_eq_sum_nodes tree,
    loopCount_eq_sum_nodes tree, height_eq_max_nodes tree, rowsFrom ([], tree), ?_, ?_, ?_, ?_, ?_⟩
  · exact drained_census tree
  · exact drained_depth tree
  · rw [rowsFrom, List.length_cons, length_rowsBelow]
  · exact nodup_rowsFrom_root tree
  · intro address row
    exact mem_rowsFrom_root_iff

/-- The deepest body is taken before the body in front of it. -/
example : (rowsFrom ([], loop (leaf ['a'] nil) (loop (loop nil nil) nil))).map Prod.fst =
    [[], [1], [1, 0], [0]] := rfl

end Tree
end LoopTape
