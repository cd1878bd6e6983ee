import TokenGrammar.Unicode.Alphabetic
import TokenGrammar.Unicode.Mark
import TokenGrammar.Unicode.Number

/-! The characters of which words consist. -/

namespace TokenGrammar.Unicode

/-- Code points of the general category Pc, which join the parts of a name. -/
def connectorRanges : CodeRanges :=
  [(0x005F, 0x005F), (0x203F, 0x2040), (0x2054, 0x2054), (0xFE33, 0xFE34), (0xFE4D, 0xFE4F),
    (0xFF3F, 0xFF3F)]

/-- Code points with the property Join_Control. -/
def joinControlRanges : CodeRanges :=
  [(0x200C, 0x200D)]

/-- Alphabetic characters, marks, decimal digits, connectors and join controls. -/
def isWordChar (char : Char) : Bool :=
  isAlphabetic char || isMark char || isDigit char || connectorRanges.cover char.toNat
    || joinControlRanges.cover char.toNat

end TokenGrammar.Unicode
