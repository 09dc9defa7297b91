/-
Sets of characters given as inclusive ranges of code points, the form in
which the character classes of this library are tabulated.
-/

namespace ApiScaffold

/-- Inclusive ranges of code points. -/
abbrev CodeRanges := List (Nat × Nat)

/-- Whether some range holds the code point. -/
def CodeRanges.contains (ranges : CodeRanges) (n : Nat) : Bool :=
  ranges.any fun (first, last) => first ≤ n && n ≤ last

theorem CodeRanges.contains_iff {ranges : CodeRanges} {n : Nat} :
    ranges.contains n = true ↔ ∃ r ∈ ranges, r.1 ≤ n ∧ n ≤ r.2 := by
  simp [CodeRanges.contains]

end ApiScaffold
