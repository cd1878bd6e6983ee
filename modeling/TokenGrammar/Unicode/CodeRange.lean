/-! Sets of code points written as increasing lists of inclusive ranges. -/

namespace TokenGrammar.Unicode

/-- Inclusive ranges of code points, each one wholly above the range before it. -/
abbrev CodeRanges := List (Nat × Nat)

/-- (ranges.cover code) tells whether one of the ranges holds the code point. The search ends
at the first range that starts above it, because the ranges increase.
-/
def CodeRanges.cover : CodeRanges → Nat → Bool
  | [], _ => false
  | (low, high) :: rest, code =>
      if code < low then false else code ≤ high || CodeRanges.cover rest code

end TokenGrammar.Unicode
