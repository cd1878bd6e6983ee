import TokenGrammar.Text.Source

/-! Matchers: what finds a pattern in a text. A matcher carries with it what can be relied upon, so
that nothing else needs to be known about how it goes about.
-/

namespace TokenGrammar

/-- The part of a text between two places, both given by the number of characters between them
and the start of a match.
-/
structure Span where
  start : Nat
  stop : Nat
  deriving DecidableEq, Repr

/-- A match: the number of characters that it covers, and the spans of groups, latest first. -/
structure Match where
  passed : Nat
  spans : List (Nat × Span)
  deriving DecidableEq, Repr

/-- All spans lie within the match. -/
def Match.SpansWithin (found : Match) : Prop :=
  ∀ entry ∈ found.spans, entry.2.start ≤ entry.2.stop ∧ entry.2.stop ≤ found.passed

/-- What finds the preferred match that starts right at a place. The names of its groups are in the
order of their numbers, and the first one stands for the whole match. A match covers no more than
the text that is ahead, and its groups lie within it. Unless the matcher looks back, a match does
not depend on what comes before the place.
-/
structure Matcher where
  groupNames : List (Option String)
  looksBack : Bool
  match? : Place → Option Match
  passed_le : ∀ {place found}, match? place = some found → found.passed ≤ place.after.length
  spansWithin : ∀ {place found}, match? place = some found → found.SpansWithin
  onward
    : looksBack = false
      → ∀ {place other : Place}, other.after = place.after → match? other = match? place

end TokenGrammar
