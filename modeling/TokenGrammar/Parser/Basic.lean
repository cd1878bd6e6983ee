import TokenGrammar.Reply
import TokenGrammar.Text.Source
import TokenGrammar.Token

/-! Parsers and those that do not look at the source. -/

namespace TokenGrammar

/-- A parser reads one token of a source, starting at an offset, or fails. -/
abbrev Parser (α : Type) := Source → Nat → Reply (Token α)

variable {α : Type}

namespace Parser

/-- Fails with this message, wherever it starts. -/
def fail (message : String) : Parser α :=
  fun _ index => .failed (.custom message index)

/-- Consumes so many bytes without looking at them, and yields this value. -/
def emit (size : Nat) (kind : Kind) (value : Value α) : Parser α :=
  fun _ index => .matched { index, size, kind, value }

end Parser

end TokenGrammar
