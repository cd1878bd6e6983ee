import TokenGrammar.Regex.CharSet

/-! Regular expressions with capture groups, assertions and lazy repetition. -/

namespace TokenGrammar

namespace Regex

/-- A condition on the place that a match has reached. -/
inductive Assertion where
  | textStart
  | textEnd
  | lineStart
  | lineEnd
  | wordBoundary
  | insideWord
  deriving DecidableEq, Repr

end Regex

/-- A regular expression. Alternatives are in order of preference; a greedy repetition prefers
more rounds to fewer, a lazy one fewer to more.
-/
inductive Regex where
  | empty
  | oneOf (set : Regex.CharSet)
  | test (assertion : Regex.Assertion)
  | capture (number : Nat) (name : Option String) (body : Regex)
  | append (first second : Regex)
  | either (first second : Regex)
  | repeated (body : Regex) (least : Nat) (most : Option Nat) (greedy : Bool)
  deriving DecidableEq, Repr

namespace Regex

/-- Exactly this character. -/
def literal (char : Char) : Regex :=
  .oneOf (.single char)

/-- Any number of times, as often as possible. -/
def zeroOrMore (body : Regex) : Regex :=
  .repeated body 0 none true

/-- Once or more often, as often as possible. -/
def oneOrMore (body : Regex) : Regex :=
  .repeated body 1 none true

/-- Once if possible, or not at all. -/
def zeroOrOne (body : Regex) : Regex :=
  .repeated body 0 (some 1) true

/-- The regular expressions one after the other. -/
def sequence : List Regex → Regex
  | [] => .empty
  | [regex] => regex
  | regex :: rest => .append regex (sequence rest)

/-- The regular expressions as alternatives; there is at least one. -/
def choice (first : Regex) : List Regex → Regex
  | [] => first
  | second :: rest => .either first (choice second rest)

/-- Numbers and names of the capture groups. -/
def captures : Regex → List (Nat × Option String)
  | .empty => []
  | .oneOf _ => []
  | .test _ => []
  | .capture number name body => (number, name) :: body.captures
  | .append first second => first.captures ++ second.captures
  | .either first second => first.captures ++ second.captures
  | .repeated body .. => body.captures

/-- A text of no characters may match, as far as the conditions in the regular expression hold. -/
def isNullable : Regex → Bool
  | .empty => true
  | .oneOf _ => false
  | .test _ => true
  | .capture _ _ body => body.isNullable
  | .append first second => first.isNullable && second.isNullable
  | .either first second => first.isNullable || second.isNullable
  | .repeated body least .. => least == 0 || body.isNullable

/-- Number of groups, the whole match included: one more than the largest number in use. -/
def groupCount (regex : Regex) : Nat :=
  (regex.captures.map (·.1)).foldl max 0 + 1

/-- The names of all groups in the order of their numbers. -/
def groupNames (regex : Regex) : List (Option String) :=
  (List.range regex.groupCount).map fun number => (regex.captures.lookup number).join

end Regex

end TokenGrammar
