import TokenGrammar.Parser.Basic
import TokenGrammar.Parser.Matcher

/-! Patterns: matchers, kept together with the text that they are written as. -/

namespace TokenGrammar

/-- A matcher and its notation. -/
structure Pattern where
  written : String
  matcher : Matcher

namespace Pattern

/-- The text of the last span that was recorded for the group with this number, in a text that
starts where the match starts.
-/
def groupText? (chars : List Char) (found : Match) (number : Nat) : Option String :=
  (found.spans.lookup number).map fun span =>
    String.ofList ((chars.drop span.start).take (span.stop - span.start))

/-- The texts of all groups of a match in the text that starts where the match starts. -/
def groups (pattern : Pattern) (chars : List Char) (found : Match) : Groups :=
  let rest := (List.range pattern.matcher.groupNames.length).drop 1
  { texts := some (String.ofList (chars.take found.passed)) :: rest.map (groupText? chars found)
    names := pattern.matcher.groupNames }

/-- Matches the pattern right at the offset. The token holds the groups. -/
def parser {α : Type} (pattern : Pattern) : Parser α := fun source index =>
  let failure := Reply.failed (.mismatch (.pattern pattern.written) index)
  match source.at? index with
  | none => failure
  | some place =>
      match pattern.matcher.match? place with
      | none => failure
      | some found =>
          let size := byteLength (place.after.take found.passed)
          let groups := pattern.groups place.after found
          (Reply.matched { index, size, kind := .named "regex", value := .groups groups }).noting
            (.patternMatched pattern.written size index)

end Pattern

end TokenGrammar
