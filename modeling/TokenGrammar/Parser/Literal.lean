import TokenGrammar.Parser.Basic
import TokenGrammar.Unicode.Lowercase

/-! Literals: fixed texts, to be found exactly or in any mixture of upper and lower case. -/

namespace TokenGrammar

/-- A text to look for. If case does not matter, it is a lowercased text. -/
structure Literal where
  text : String
  ignoreCase : Bool
  deriving DecidableEq, Repr

namespace Literal

/-- Looks for exactly this text. -/
def exact (text : String) : Literal :=
  { text, ignoreCase := false }

/-- Looks for this text in any case: the lowercased text is compared with lowercased source. -/
def anyCase (text : String) : Literal :=
  { text := String.ofList (Unicode.lowercase text.toList), ignoreCase := true }

/-- The sample of the source stands for the literal. -/
def accepts (literal : Literal) (sample : List Char) : Bool :=
  (if literal.ignoreCase then Unicode.lowercase sample else sample) == literal.text.toList

/-- Compares the literal with a sample of the source that has as many characters as the literal,
or fewer at the end of the source. The token holds the sample.
-/
def parser {α : Type} (literal : Literal) : Parser α := fun source index =>
  match source.at? index with
  | none => .failed (.mismatch (.invalidOffset source.size) index)
  | some place =>
      let sample := place.after.take literal.text.length
      let found := String.ofList sample
      if literal.accepts sample then
        .matched { index, size := byteLength sample, kind := .named "text", value := .text found }
      else
        .failed (.mismatch (.literal literal.text found) index)

end Literal

end TokenGrammar
