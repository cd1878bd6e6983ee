import TokenGrammar.Parser.Pattern
import TokenGrammar.Proofs.Regex.Onward
import TokenGrammar.Proofs.Regex.Spans
import TokenGrammar.Regex.Notation

/-! Patterns of regular expressions. -/

namespace TokenGrammar

namespace Regex

/-- The matcher of a regular expression. -/
def matcher (regex : Regex) : Matcher where
  groupNames := regex.groupNames
  looksBack := regex.looksBack
  match? := regex.match?
  passed_le := passed_le_of_match?
  spansWithin := spansWithin_of_match?
  onward h := match?_eq_of_after_eq h

/-- The pattern of a regular expression and its notation. -/
def pattern (regex : Regex) (written : String) : Pattern :=
  { written, matcher := regex.matcher }

end Regex

namespace Pattern

/-- Reads a pattern, which fails for all malformed notations alike. -/
def read? (written : String) (ignoreCase : Bool) : Option Pattern :=
  (Regex.read? ignoreCase written.toList).map (·.pattern written)

/-- What is said about a malformed notation. -/
def malformed : String :=
  "error parsing pattern 0"

end Pattern

end TokenGrammar
