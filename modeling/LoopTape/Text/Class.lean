namespace LoopTape
namespace Text

/-!
# Classes of characters

A class of characters is a list of ranges of code points, in increasing order
and without overlap.  A search can then stop at the first range that begins
beyond the code point it looks for.
-/

/-- Whether a code point lies in one of the ranges, first and last included. -/
def within (code : Nat) : List (Nat × Nat) -> Bool
  | [] => false
  | (first, last) :: later =>
    if code < first then false
    else if code ≤ last then true
    else within code later

/-- A code point that is found lies in a range of the list. -/
theorem exists_range_of_within {code : Nat} {ranges : List (Nat × Nat)}
    (found : within code ranges = true) :
    ∃ range, range ∈ ranges ∧ range.1 ≤ code ∧ code ≤ range.2 := by
  induction ranges with
  | nil => cases found
  | cons range later inductionHypothesis =>
    unfold within at found
    split at found
    · cases found
    · split at found
      · exact ⟨range, List.mem_cons_self, by omega, by assumption⟩
      · obtain ⟨other, member, inside⟩ := inductionHypothesis found
        exact ⟨other, List.mem_cons_of_mem range member, inside⟩

end Text
end LoopTape
