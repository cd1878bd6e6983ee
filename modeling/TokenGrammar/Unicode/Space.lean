import TokenGrammar.Unicode.CodeRange

/-! The white space of every script. -/

namespace TokenGrammar.Unicode

/-- Code points with the property White_Space. -/
def spaceRanges : CodeRanges :=
  [(0x0009, 0x000D), (0x0020, 0x0020), (0x0085, 0x0085), (0x00A0, 0x00A0), (0x1680, 0x1680),
    (0x2000, 0x200A), (0x2028, 0x2029), (0x202F, 0x202F), (0x205F, 0x205F), (0x3000, 0x3000)]

/-- Blanks, tabs and line breaks. -/
def isSpace (char : Char) : Bool :=
  spaceRanges.cover char.toNat

end TokenGrammar.Unicode
