import TokenGrammar.Text.Align
import TokenGrammar.Text.Source

/-! Snippets: the surroundings of an offset on one line, with a caret under it on another. -/

namespace TokenGrammar

/-- The last boundary that is not after the offset. -/
def Source.floor (source : Source) : Nat → Nat
  | 0 => 0
  | offset + 1 => if source.isBoundary (offset + 1) then offset + 1 else source.floor offset

/-- Shows the source up to so many bytes before and after an offset, with white space as blanks
and a caret under the character at the offset. Offsets inside of a character are moved to its
start, offsets past the end to the end.
-/
def Source.snippet (source : Source) (offset radius : Nat) : String :=
  let index := source.floor (min offset source.size)
  let start := source.floor (index - radius)
  let stop := source.floor (min (index + radius) source.size)
  let shown := (source.slice? start stop).getD []
  let before := (source.slice? start index).getD []
  let line := shown.map fun char => if Unicode.isSpace char then ' ' else char
  String.ofList line ++ "\n" ++ blanks before.length ++ "^"

end TokenGrammar
