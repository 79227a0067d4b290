import LoopTape.Proofs.Bracket.Partners

namespace LoopTape
namespace Bracket

/-!
# Texts found again in other texts

A text can be found again in another one although its positions have changed:
there may be more text in front of it or behind it, or its comments may be gone.
What matters to a machine is that each instruction has a place in the other text,
that the next character follows it there, and that its brackets belong together
as before.  No loop of the text may be ended by a bracket from elsewhere.

The scans for brackets then commute with going from a position to its place.
-/

/-- The instructions of `source` have places in `target` at which their brackets
belong together as they did.  A comment has a place too, or it has been passed
over. -/
structure Relocation (source target : List Char) (place : Nat -> Nat) : Prop where
  code : forall {position : Nat} {character : Char}, source[position]? = some character ->
    Instruction.isCode character = true ->
      target[place position]? = some character ∧ place (position + 1) = place position + 1
  comment : forall {position : Nat} {character : Char}, source[position]? = some character ->
    Instruction.isCode character = false ->
      place (position + 1) = place position ∨
        (target[place position]? = some character ∧ place (position + 1) = place position + 1)
  encloses : forall {start stop : Nat}, Encloses source start stop ->
    Encloses target (place start) (place stop)
  stop : forall {start stop : Nat}, source[start]? = some '[' ->
    Encloses target (place start) stop ->
      Exists fun origin => stop = place origin ∧ Encloses source start origin
  start : forall {start stop : Nat}, source[stop]? = some ']' ->
    Encloses target start (place stop) ->
      Exists fun origin => start = place origin ∧ Encloses source origin stop

namespace Relocation

variable {source target : List Char} {place : Nat -> Nat}

theorem loopEnd?_place (relocation : Relocation source target place) {start : Nat}
    (opens : source[start]? = some '[') :
    loopEnd? target (place start) = (loopEnd? source start).map place := by
  apply Option.ext
  intro stop
  rw [loopEnd?_eq_some_iff_encloses (relocation.code opens rfl).1, Option.map_eq_some_iff]
  constructor
  · intro encloses
    rcases relocation.stop opens encloses with ⟨origin, same, within⟩
    exact ⟨origin, (loopEnd?_eq_some_iff_encloses opens origin).mpr within, same.symm⟩
  · rintro ⟨origin, found, same⟩
    rw [← same]
    exact relocation.encloses ((loopEnd?_eq_some_iff_encloses opens origin).mp found)

theorem loopBegin?_place (relocation : Relocation source target place) {stop : Nat}
    (closes : source[stop]? = some ']') :
    loopBegin? target (place stop) = (loopBegin? source stop).map place := by
  apply Option.ext
  intro start
  rw [loopBegin?_eq_some_iff_encloses (relocation.code closes rfl).1, Option.map_eq_some_iff]
  constructor
  · intro encloses
    rcases relocation.start closes encloses with ⟨origin, same, within⟩
    exact ⟨origin, (loopBegin?_eq_some_iff_encloses closes origin).mpr within, same.symm⟩
  · rintro ⟨origin, found, same⟩
    rw [← same]
    exact relocation.encloses ((loopBegin?_eq_some_iff_encloses closes origin).mp found)

/-- Past the end of a loop comes the place of what comes past its end. -/
theorem place_past_stop (relocation : Relocation source target place) {start stop : Nat}
    (opens : source[start]? = some '[') (found : loopEnd? source start = some stop) :
    place (stop + 1) = place stop + 1 :=
  (relocation.code ((loopEnd?_eq_some_iff_encloses opens stop).mp found).closes rfl).2

theorem place_past_start (relocation : Relocation source target place) {start stop : Nat}
    (closes : source[stop]? = some ']') (found : loopBegin? source stop = some start) :
    place (start + 1) = place start + 1 :=
  (relocation.code ((loopBegin?_eq_some_iff_encloses closes start).mp found).opens rfl).2

end Relocation
end Bracket
end LoopTape
