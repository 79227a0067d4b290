import LoopTape.Bracket.Matching
import LoopTape.Proofs.Bracket.Settling

namespace LoopTape
namespace Bracket

/-!
# Partners

One pass with a stack of pending brackets, a scan upward and a scan downward
all find the same pairs.  What they agree on can be said without any of them:
`start` encloses a stretch that ends at `stop` when the height after `stop` is
the height in front of `start` and every height in between is greater.

The scan upward finds such a stretch because heights move in single steps.
From an opening bracket the walk begins above its first height, so avoiding
that height is the same as staying above it.  The scan downward finds it
because the two ends have the same height: the stretch can be read from either.

The stack knows one more number.  A pending bracket with `n` others on top of
it is the one that a walk at level `n + 1` is about to end, since each of the
others has raised the level by one and none has been closed.
-/

/-- The stretch from `start` to `stop` is one loop together with its brackets. -/
structure Encloses (text : List Char) (start stop : Nat) : Prop where
  ordered : start < stop
  inside : stop < text.length
  level : heightAt text (stop + 1) = heightAt text start
  above : forall middle, start < middle -> middle ≤ stop -> heightAt text start < heightAt text middle

namespace Encloses

variable {text : List Char} {start stop : Nat}

theorem opens (encloses : Encloses text start stop) : text[start]? = some '[' := by
  have within : start < text.length := Nat.lt_trans encloses.ordered encloses.inside
  have rises := encloses.above (start + 1) (Nat.lt_succ_self start) encloses.ordered
  rw [heightAt_succ (List.getElem?_eq_getElem within)] at rises
  rcases opening_cases text[start] with ⟨same, _, _⟩ | ⟨_, _, weight⟩ | ⟨_, _, weight⟩
  · rw [List.getElem?_eq_getElem within, same]
  · omega
  · omega

theorem closes (encloses : Encloses text start stop) : text[stop]? = some ']' := by
  have falls := encloses.above stop encloses.ordered (Nat.le_refl stop)
  have level := encloses.level
  have within : stop < text.length := encloses.inside
  rw [heightAt_succ (List.getElem?_eq_getElem within)] at level
  rcases opening_cases text[stop] with ⟨_, _, weight⟩ | ⟨same, _, _⟩ | ⟨_, _, weight⟩
  · omega
  · rw [List.getElem?_eq_getElem within, same]
  · omega

end Encloses

/-! ## The two scans -/

theorem loopEnd?_eq_some_iff_encloses {text : List Char} {start : Nat}
    (opens : text[start]? = some '[') (stop : Nat) :
    loopEnd? text start = some stop ↔ Encloses text start stop := by
  have rises : heightAt text (start + 1) = heightAt text start + 1 := heightAt_succ opens
  rw [loopEnd?_eq_some_iff]
  constructor
  · rintro ⟨ordered, inside, level, before⟩
    have later : start ≠ stop := by
      intro same
      rw [← same, rises] at level
      omega
    have begins : heightAt text start < heightAt text (start + 1) := by omega
    refine ⟨by omega, inside, level, heightAt_above_of_ne begins ?_⟩
    intro middle after within
    have apart := before (middle - 1) (by omega) (by omega)
    rwa [Nat.sub_add_cancel (by omega)] at apart
  · intro encloses
    refine ⟨Nat.le_of_lt encloses.ordered, encloses.inside, encloses.level, ?_⟩
    intro middle after within
    have above := encloses.above (middle + 1) (by omega) (by omega)
    omega

theorem loopBegin?_eq_some_iff_encloses {text : List Char} {stop : Nat}
    (closes : text[stop]? = some ']') (start : Nat) :
    loopBegin? text stop = some start ↔ Encloses text start stop := by
  have falls : heightAt text (stop + 1) = heightAt text stop - 1 := heightAt_succ closes
  have inside : stop < text.length := (List.getElem?_eq_some_iff.mp closes).1
  rw [loopBegin?_eq_some_iff inside]
  constructor
  · rintro ⟨ordered, level, before⟩
    have earlier : start ≠ stop := by
      intro same
      rw [same, falls] at level
      omega
    refine ⟨by omega, inside, level.symm, heightAt_above_of_ne_downward (by omega) ?_⟩
    intro middle after within
    rw [level]
    exact before middle after within
  · intro encloses
    refine ⟨Nat.le_of_lt encloses.ordered, encloses.level.symm, ?_⟩
    intro middle after within
    have above := encloses.above middle after within
    rw [encloses.level]
    omega

/-! ## The pass with a stack -/

theorem pairsFrom_start (position : Nat) (pending : List Nat) (rest : List Char) :
    pairsFrom position pending ('[' :: rest) = pairsFrom (position + 1) (position :: pending) rest :=
  rfl

theorem pairsFrom_stop_nil (position : Nat) (rest : List Char) :
    pairsFrom position [] (']' :: rest) = pairsFrom (position + 1) [] rest :=
  rfl

theorem pairsFrom_stop_cons (position top : Nat) (below : List Nat) (rest : List Char) :
    pairsFrom position (top :: below) (']' :: rest) =
      (top, position) :: pairsFrom (position + 1) below rest :=
  rfl

theorem pairsFrom_other {character : Char} (notStart : character ≠ '[')
    (notStop : character ≠ ']') (position : Nat) (pending : List Nat) (rest : List Char) :
    pairsFrom position pending (character :: rest) = pairsFrom (position + 1) pending rest := by
  rw [pairsFrom.eq_def position pending (character :: rest)]
  dsimp only
  split
  · rename_i reads
    exact absurd ((Instruction.ofChar?_eq_some_iff _ _).mp reads) notStart
  · rename_i reads
    exact absurd ((Instruction.ofChar?_eq_some_iff _ _).mp reads) notStop
  · rfl

/-- What the pass pairs up was pending before or is met later. -/
theorem start_of_mem_pairsFrom {position : Nat} {pending : List Nat} {rest : List Char}
    {start stop : Nat} (member : (start, stop) ∈ pairsFrom position pending rest) :
    start ∈ pending ∨ position ≤ start := by
  induction rest generalizing position pending with
  | nil => cases member
  | cons character rest inductionHypothesis =>
      rcases opening_cases character with ⟨same, _, _⟩ | ⟨same, _, _⟩ | ⟨notStart, notStop, _⟩
      · rw [same, pairsFrom_start] at member
        rcases inductionHypothesis member with earlier | later
        · rcases List.mem_cons.mp earlier with here | before
          · exact Or.inr (Nat.le_of_eq here.symm)
          · exact Or.inl before
        · exact Or.inr (Nat.le_of_succ_le later)
      · rw [same] at member
        cases pending with
        | nil =>
            rw [pairsFrom_stop_nil] at member
            rcases inductionHypothesis member with impossible | later
            · cases impossible
            · exact Or.inr (Nat.le_of_succ_le later)
        | cons top below =>
            rw [pairsFrom_stop_cons] at member
            rcases List.mem_cons.mp member with here | after
            · cases here
              exact Or.inl List.mem_cons_self
            · rcases inductionHypothesis after with earlier | later
              · exact Or.inl (List.mem_cons_of_mem _ earlier)
              · exact Or.inr (Nat.le_of_succ_le later)
      · rw [pairsFrom_other notStart notStop] at member
        rcases inductionHypothesis member with earlier | later
        · exact Or.inl earlier
        · exact Or.inr (Nat.le_of_succ_le later)

/-- A pending bracket is ended where a walk settles that begins one level
higher than the number of brackets on top of it. -/
theorem mem_pairsFrom_of_pending {position : Nat} {upper below : List Nat} {start : Nat}
    (unique : (upper ++ start :: below).Nodup)
    (earlier : forall bracket, bracket ∈ upper ++ start :: below -> bracket < position)
    (rest : List Char) (stop : Nat) :
    (start, stop) ∈ pairsFrom position (upper ++ start :: below) rest ↔
      settleFrom opening ((upper.length : Int) + 1) position rest = some stop := by
  induction rest generalizing position upper with
  | nil =>
      constructor
      · intro impossible
        cases impossible
      · intro impossible
        cases impossible
  | cons character rest inductionHypothesis =>
      have sooner : forall bracket, bracket ∈ upper ++ start :: below -> bracket < position + 1 :=
        fun bracket member => Nat.lt_succ_of_lt (earlier bracket member)
      unfold settleFrom
      rcases opening_cases character with ⟨same, _, weight⟩ | ⟨same, _, weight⟩ |
        ⟨notStart, notStop, weight⟩
      · rw [weight, if_neg (by omega), same, pairsFrom_start, ← List.cons_append,
          inductionHypothesis, List.length_cons, Int.natCast_add, Int.natCast_one]
        · exact List.nodup_cons.mpr ⟨fun member => Nat.lt_irrefl _ (earlier _ member), unique⟩
        · intro bracket member
          rcases List.mem_cons.mp member with here | before
          · omega
          · exact sooner bracket before
      · rw [weight, same]
        cases upper with
        | nil =>
            have gone : start ∉ below := (List.nodup_cons.mp unique).1
            have passed : start < position := earlier start List.mem_cons_self
            rw [List.nil_append, pairsFrom_stop_cons, if_pos (by simp), List.mem_cons]
            constructor
            · rintro (here | after)
              · cases here
                rfl
              · rcases start_of_mem_pairsFrom after with pending | later
                · exact absurd pending gone
                · omega
            · intro settled
              cases settled
              exact Or.inl rfl
        | cons top upper =>
            have different : start ≠ top := by
              intro equal
              apply (List.nodup_cons.mp unique).1
              rw [← equal]
              exact List.mem_append_right upper List.mem_cons_self
            rw [List.cons_append, pairsFrom_stop_cons, List.length_cons, if_neg (by omega),
              List.mem_cons, inductionHypothesis (List.nodup_cons.mp unique).2
                (fun bracket member => sooner bracket (List.mem_cons_of_mem _ member))]
            rw [show ((upper.length + 1 : Nat) : Int) + 1 + -1 = (upper.length : Int) + 1 by omega]
            constructor
            · rintro (here | settled)
              · exact absurd (Prod.mk.inj here).1 different
              · exact settled
            · intro settled
              exact Or.inr settled
      · rw [weight, if_neg (by omega), Int.add_zero, pairsFrom_other notStart notStop,
          inductionHypothesis unique sooner]

/-- The pass takes a partner for an opening bracket that it has just met from
the walk that begins there. -/
theorem mem_pairsFrom_self {position : Nat} {pending : List Nat} (unique : pending.Nodup)
    (earlier : forall bracket, bracket ∈ pending -> bracket < position)
    (character : Char) (rest : List Char) (stop : Nat) :
    (position, stop) ∈ pairsFrom position pending (character :: rest) ↔
      character = '[' ∧ settleFrom opening 0 position (character :: rest) = some stop := by
  have absent : position ∉ pending := fun member => Nat.lt_irrefl _ (earlier position member)
  unfold settleFrom
  rcases opening_cases character with ⟨same, _, weight⟩ | ⟨same, _, _⟩ | ⟨notStart, notStop, _⟩
  · have sooner : forall bracket, bracket ∈ [] ++ position :: pending -> bracket < position + 1 := by
      intro bracket member
      rcases List.mem_cons.mp member with here | before
      · omega
      · exact Nat.lt_succ_of_lt (earlier bracket before)
    have found := mem_pairsFrom_of_pending (List.nodup_cons.mpr ⟨absent, unique⟩) sooner rest stop
    rw [weight, if_neg (by omega), same, pairsFrom_start]
    constructor
    · intro member
      exact ⟨rfl, found.mp member⟩
    · rintro ⟨_, settled⟩
      exact found.mpr settled
  · constructor
    · intro member
      rw [same] at member
      cases pending with
      | nil =>
          rw [pairsFrom_stop_nil] at member
          rcases start_of_mem_pairsFrom member with impossible | later
          · cases impossible
          · omega
      | cons top below =>
          rw [pairsFrom_stop_cons] at member
          rcases List.mem_cons.mp member with here | after
          · cases here
            exact absurd List.mem_cons_self absent
          · rcases start_of_mem_pairsFrom after with before | later
            · exact absurd (List.mem_cons_of_mem top before) absent
            · omega
    · rintro ⟨opens, _⟩
      rw [same] at opens
      cases opens
  · constructor
    · intro member
      rw [pairsFrom_other notStart notStop] at member
      rcases start_of_mem_pairsFrom member with before | later
      · exact absurd before absent
      · omega
    · rintro ⟨opens, _⟩
      exact absurd opens notStart

/-- A bracket met later is paired exactly when it opens and a walk from it
settles. -/
theorem mem_pairsFrom_of_le {position : Nat} {pending : List Nat} (unique : pending.Nodup)
    (earlier : forall bracket, bracket ∈ pending -> bracket < position)
    (rest : List Char) {start : Nat} (later : position ≤ start) (stop : Nat) :
    (start, stop) ∈ pairsFrom position pending rest ↔
      rest[start - position]? = some '[' ∧
        settleFrom opening 0 start (rest.drop (start - position)) = some stop := by
  induction rest generalizing position pending with
  | nil =>
      constructor
      · intro impossible
        cases impossible
      · rintro ⟨impossible, _⟩
        cases impossible
  | cons character rest inductionHypothesis =>
      by_cases here : start = position
      · rw [here, Nat.sub_self, List.drop_zero, List.getElem?_cons_zero, Option.some_inj]
        exact mem_pairsFrom_self unique earlier character rest stop
      · have sooner : forall bracket, bracket ∈ pending -> bracket < position + 1 :=
          fun bracket member => Nat.lt_succ_of_lt (earlier bracket member)
        have next : start - position = start - (position + 1) + 1 := by omega
        rw [next, List.getElem?_cons_succ, List.drop_succ_cons]
        rcases opening_cases character with ⟨same, _, _⟩ | ⟨same, _, _⟩ | ⟨notStart, notStop, _⟩
        · rw [same, pairsFrom_start]
          apply inductionHypothesis
          · exact List.nodup_cons.mpr ⟨fun member => Nat.lt_irrefl _ (earlier _ member), unique⟩
          · intro bracket member
            rcases List.mem_cons.mp member with equal | before
            · omega
            · exact sooner bracket before
          · omega
        · rw [same]
          cases pending with
          | nil =>
              rw [pairsFrom_stop_nil]
              exact inductionHypothesis unique sooner (by omega)
          | cons top below =>
              have different : start ≠ top := by
                have before := earlier top List.mem_cons_self
                omega
              rw [pairsFrom_stop_cons, List.mem_cons,
                inductionHypothesis (List.nodup_cons.mp unique).2
                  (fun bracket member => sooner bracket (List.mem_cons_of_mem _ member)) (by omega)]
              constructor
              · rintro (equal | found)
                · exact absurd (Prod.mk.inj equal).1 different
                · exact found
              · intro found
                exact Or.inr found
        · rw [pairsFrom_other notStart notStop]
          exact inductionHypothesis unique sooner (by omega)

/-- The pass pairs the two ends of every loop, and nothing else. -/
theorem mem_pairs_iff (text : List Char) (start stop : Nat) :
    (start, stop) ∈ pairs text ↔ Encloses text start stop := by
  rw [pairs, mem_pairsFrom_of_le List.nodup_nil (by simp) text (Nat.zero_le start), Nat.sub_zero,
    ← loopEnd?_eq_settleFrom]
  constructor
  · rintro ⟨opens, settled⟩
    exact (loopEnd?_eq_some_iff_encloses opens stop).mp settled
  · intro encloses
    exact ⟨encloses.opens, (loopEnd?_eq_some_iff_encloses encloses.opens stop).mpr encloses⟩

/-! ## Partners as functions -/

theorem Encloses.stop_unique {text : List Char} {start stop other : Nat}
    (first : Encloses text start stop) (second : Encloses text start other) : stop = other := by
  have found := (loopEnd?_eq_some_iff_encloses first.opens stop).mpr first
  rw [(loopEnd?_eq_some_iff_encloses first.opens other).mpr second] at found
  exact (Option.some.inj found).symm

theorem Encloses.start_unique {text : List Char} {start other stop : Nat}
    (first : Encloses text start stop) (second : Encloses text other stop) : start = other := by
  have found := (loopBegin?_eq_some_iff_encloses first.closes start).mpr first
  rw [(loopBegin?_eq_some_iff_encloses first.closes other).mpr second] at found
  exact (Option.some.inj found).symm

/-- A table that has one value for each key is looked up by the first entry. -/
theorem map_find?_eq_some_iff {table : List (Nat × Nat)} {key value : Nat × Nat -> Nat}
    (unique : forall first, first ∈ table -> forall second, second ∈ table ->
      key first = key second -> value first = value second) (wanted result : Nat) :
    (table.find? (fun pair => key pair == wanted)).map value = some result ↔
      Exists fun pair => pair ∈ table ∧ key pair = wanted ∧ value pair = result := by
  have keyOf : forall pair, table.find? (fun pair => key pair == wanted) = some pair ->
      key pair = wanted := by
    intro pair found
    have same := List.find?_some found
    exact beq_iff_eq.mp same
  rw [Option.map_eq_some_iff]
  constructor
  · rintro ⟨pair, found, same⟩
    exact ⟨pair, List.mem_of_find?_eq_some found, keyOf pair found, same⟩
  · rintro ⟨pair, member, named, same⟩
    have isFound : (table.find? (fun pair => key pair == wanted)).isSome :=
      List.find?_isSome.mpr ⟨pair, member, beq_iff_eq.mpr named⟩
    rcases Option.isSome_iff_exists.mp isFound with ⟨other, found⟩
    refine ⟨other, found, ?_⟩
    rw [← same]
    apply unique other (List.mem_of_find?_eq_some found) pair member
    rw [keyOf other found, named]

theorem closingPartner?_eq_some_iff (text : List Char) (start stop : Nat) :
    closingPartner? text start = some stop ↔ Encloses text start stop := by
  rw [closingPartner?, map_find?_eq_some_iff, ← mem_pairs_iff]
  · constructor
    · rintro ⟨⟨first, last⟩, member, rfl, rfl⟩
      exact member
    · intro member
      exact ⟨(start, stop), member, rfl, rfl⟩
  · rintro ⟨first, last⟩ member ⟨otherFirst, otherLast⟩ second same
    dsimp only at same
    rw [← same] at second
    exact ((mem_pairs_iff _ _ _).mp member).stop_unique ((mem_pairs_iff _ _ _).mp second)

theorem openingPartner?_eq_some_iff (text : List Char) (start stop : Nat) :
    openingPartner? text stop = some start ↔ Encloses text start stop := by
  rw [openingPartner?, map_find?_eq_some_iff, ← mem_pairs_iff]
  · constructor
    · rintro ⟨⟨first, last⟩, member, rfl, rfl⟩
      exact member
    · intro member
      exact ⟨(start, stop), member, rfl, rfl⟩
  · rintro ⟨first, last⟩ member ⟨otherFirst, otherLast⟩ second same
    dsimp only at same
    rw [← same] at second
    exact ((mem_pairs_iff _ _ _).mp member).start_unique ((mem_pairs_iff _ _ _).mp second)

/-- At an opening bracket the scan upward finds the partner of the pass. -/
theorem loopEnd?_eq_closingPartner? {text : List Char} {start : Nat}
    (opens : text[start]? = some '[') : loopEnd? text start = closingPartner? text start := by
  apply Option.ext
  intro stop
  rw [loopEnd?_eq_some_iff_encloses opens, closingPartner?_eq_some_iff]

/-- At a closing bracket the scan downward finds the partner of the pass. -/
theorem loopBegin?_eq_openingPartner? {text : List Char} {stop : Nat}
    (closes : text[stop]? = some ']') : loopBegin? text stop = openingPartner? text stop := by
  apply Option.ext
  intro start
  rw [loopBegin?_eq_some_iff_encloses closes, openingPartner?_eq_some_iff]

theorem scanForward_eq_closingPartner? {text : List Char} {start : Nat}
    (opens : text[start]? = some '[') :
    scanForward text start =
      .ok ((closingPartner? text start).map (fun stop : Nat => (stop : Int))) := by
  rw [scanForward_natCast, loopEnd?_eq_closingPartner? opens]

theorem scanBackward_eq_openingPartner? {text : List Char} {stop : Nat}
    (closes : text[stop]? = some ']') :
    scanBackward text stop =
      .ok ((openingPartner? text stop).map (fun start : Nat => (start : Int))) := by
  have inside : stop < text.length := (List.getElem?_eq_some_iff.mp closes).1
  rw [scanBackward_natCast text stop inside, loopBegin?_eq_openingPartner? closes]

/-- From one end of a loop to the other and back. -/
theorem scanForward_eq_iff_scanBackward_eq {text : List Char} {start stop : Nat}
    (opens : text[start]? = some '[') (closes : text[stop]? = some ']') :
    scanForward text start = .ok (some (stop : Int)) ↔
      scanBackward text stop = .ok (some (start : Int)) := by
  rw [scanForward_eq_closingPartner? opens, scanBackward_eq_openingPartner? closes]
  constructor
  · intro found
    rcases Option.map_eq_some_iff.mp (Except.ok.inj found) with ⟨other, paired, same⟩
    have encloses := (closingPartner?_eq_some_iff _ _ _).mp paired
    rw [Int.natCast_inj.mp same] at encloses
    rw [(openingPartner?_eq_some_iff _ _ _).mpr encloses]
    rfl
  · intro found
    rcases Option.map_eq_some_iff.mp (Except.ok.inj found) with ⟨other, paired, same⟩
    have encloses := (openingPartner?_eq_some_iff _ _ _).mp paired
    rw [Int.natCast_inj.mp same] at encloses
    rw [(closingPartner?_eq_some_iff _ _ _).mpr encloses]
    rfl

end Bracket
end LoopTape
