/-!
# Ranges of code points

A character class is a sorted table of closed intervals of code points.  The classes of this library
(`Blank`, `Printable`, those of `Case`) are such tables, so that membership is computed and can be
decided.
-/

namespace QueryPipeline.Text

/-- Whether a code point lies in one of the closed intervals of a table.  The search ends at an
interval that begins behind the code point. -/
def inRanges : List (Nat × Nat) → Nat → Bool
  | [], _ => false
  | (first, last) :: rest, n =>
    if n < first then false else if n ≤ last then true else inRanges rest n

theorem exists_of_inRanges {ranges : List (Nat × Nat)} {n : Nat} (h : inRanges ranges n = true) :
    ∃ r ∈ ranges, r.1 ≤ n ∧ n ≤ r.2 := by
  induction ranges with
  | nil => cases h
  | cons r rest ih =>
    rw [inRanges] at h
    split at h
    · cases h
    · split at h
      · exact ⟨r, List.mem_cons_self, by omega, by omega⟩
      · obtain ⟨s, hs, hn⟩ := ih h
        exact ⟨s, List.mem_cons_of_mem r hs, hn⟩

end QueryPipeline.Text
