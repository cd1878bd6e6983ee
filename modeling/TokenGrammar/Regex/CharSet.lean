import TokenGrammar.Unicode.CaseFold
import TokenGrammar.Unicode.Space
import TokenGrammar.Unicode.Word

/-! Sets of characters, described the way a pattern describes them. The classes of digits and of
word characters hold no characters of the latest edition of the character set.
-/

namespace TokenGrammar.Regex

/-- A set of characters. The set (.folded set) holds all case variants of the characters in the
set.
-/
inductive CharSet where
  | empty
  | range (low high : Char)
  | digit
  | space
  | word
  | union (left right : CharSet)
  | complement (set : CharSet)
  | folded (set : CharSet)
  deriving DecidableEq, Repr

namespace CharSet

/-- Membership. A set without case holds a character iff it holds one of its case variants. -/
def contains : CharSet → Char → Bool
  | .empty, _ => false
  | .range low high, char => low ≤ char && char ≤ high
  | .digit, char => Unicode.isDigit char && !Unicode.isRecent char
  | .space, char => Unicode.isSpace char
  | .word, char => Unicode.isWordChar char && !Unicode.isRecent char
  | .union left right, char => left.contains char || right.contains char
  | .complement set, char => !set.contains char
  | .folded set, char => set.contains char || (Unicode.caseVariants char).any set.contains

/-- The set of one character. -/
def single (char : Char) : CharSet :=
  .range char char

/-- The set with the members of another one added. -/
def add : CharSet → CharSet → CharSet
  | .empty, members => members
  | set, members => .union set members

/-- The set of all characters. -/
def all : CharSet :=
  .complement .empty

end CharSet

end TokenGrammar.Regex
