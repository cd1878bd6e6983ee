import TokenGrammar.Regex.Basic

/-! The lexemes of the notation for regular expressions, from single characters to whole classes
in brackets. Reading yields nothing if the notation is malformed.
-/

namespace TokenGrammar.Regex

-----------------------------------------------------------------------------------------
-- Lexemes
-----------------------------------------------------------------------------------------

/-- What a flag changes: case does not matter, the assertions ^ and $ hold at line breaks, the
dot also matches a line break.
-/
inductive Flag where
  | ignoreCase
  | multiLine
  | dotAll
  deriving DecidableEq, Repr

/-- The flags that are switched on and off. -/
structure FlagChange where
  switchedOn : List Flag := []
  switchedOff : List Flag := []
  deriving DecidableEq, Repr

/-- The smallest parts of the notation that have a meaning. -/
inductive Lexeme where
  | char (char : Char)
  | dot
  | set (set : CharSet)
  | bracket (negated : Bool) (items : CharSet)
  | caret
  | dollar
  | assertion (assertion : Assertion)
  | openCapture (name : Option String)
  | openPlain (change : FlagChange)
  | flags (change : FlagChange)
  | bar
  | close
  | repetition (least : Nat) (most : Option Nat) (greedy : Bool)
  deriving DecidableEq, Repr

/-- Reads a part of the notation and leaves the rest, which is shorter. -/
abbrev Reader (β : Type) := List Char → Option (β × List Char)

-----------------------------------------------------------------------------------------
-- Escapes
-----------------------------------------------------------------------------------------

/-- What a backslash together with the characters after it stands for. -/
inductive Escape where
  | char (char : Char)
  | set (set : CharSet)
  | assertion (assertion : Assertion)

/-- The value of a hexadecimal digit. -/
def hexValue? (char : Char) : Option Nat :=
  if '0' ≤ char ∧ char ≤ '9' then some (char.toNat - '0'.toNat)
  else if 'a' ≤ char ∧ char ≤ 'f' then some (char.toNat - 'a'.toNat + 10)
  else if 'A' ≤ char ∧ char ≤ 'F' then some (char.toNat - 'A'.toNat + 10)
  else none

/-- The character with this code point, unless it is a surrogate or out of range. -/
def scalar? (code : Nat) : Option Char :=
  if code.isValidChar then some (Char.ofNat code) else none

/-- Reads exactly so many hexadecimal digits after those of the given value. -/
def readHex : (digits : Nat) → (value : Nat) → Reader Nat
  | 0, value, rest => some (value, rest)
  | _ + 1, _, [] => none
  | digits + 1, value, char :: rest => do
      let digit ← hexValue? char
      readHex digits (value * 16 + digit) rest

/-- Reads hexadecimal digits up to a closing brace. -/
def readBracedHex (value : Option Nat) : Reader Nat
  | [] => none
  | char :: rest =>
      if char = '\x7d' then value.map (·, rest)
      else do
        let digit ← hexValue? char
        readBracedHex (some (value.getD 0 * 16 + digit)) rest

/-- Reads a code point of so many digits, or of any number of digits in braces. -/
def readScalar (digits : Nat) : Reader Char
  | [] => none
  | char :: rest => do
      let (code, rest) ←
        if char = '\x7b' then readBracedHex none rest else readHex digits 0 (char :: rest)
      pure (← scalar? code, rest)

/-- A character that a backslash keeps as it is: any of the printable or control characters of
ASCII but letters, digits and angle brackets.
-/
def isEscapable (char : Char) : Bool :=
  char.toNat < 0x80 && !char.isAlphanum && char != '<' && char != '>'

/-- Words in braces after an escaped b would name other kinds of boundaries. -/
def opensWord : List Char → Bool
  | brace :: char :: _ => brace = '\x7b' && (char.isAlpha || char = '-')
  | _ => false

/-- Reads what follows a backslash. -/
def readEscape : Reader Escape
  | [] => none
  | char :: rest =>
      match char with
      | 'd' => some (.set .digit, rest)
      | 's' => some (.set .space, rest)
      | 'w' => some (.set .word, rest)
      | 'D' => some (.set (.complement .digit), rest)
      | 'S' => some (.set (.complement .space), rest)
      | 'W' => some (.set (.complement .word), rest)
      | 'A' => some (.assertion .textStart, rest)
      | 'z' => some (.assertion .textEnd, rest)
      | 'b' => if opensWord rest then none else some (.assertion .wordBoundary, rest)
      | 'B' => some (.assertion .insideWord, rest)
      | 'a' => some (.char '\x07', rest)
      | 'f' => some (.char '\x0c', rest)
      | 't' => some (.char '\t', rest)
      | 'n' => some (.char '\n', rest)
      | 'r' => some (.char '\r', rest)
      | 'v' => some (.char '\x0b', rest)
      | 'x' => (readScalar 2 rest).map fun (char, rest) => (.char char, rest)
      | 'u' => (readScalar 4 rest).map fun (char, rest) => (.char char, rest)
      | 'U' => (readScalar 8 rest).map fun (char, rest) => (.char char, rest)
      | _ => if isEscapable char then some (.char char, rest) else none

-----------------------------------------------------------------------------------------
-- Classes in brackets
-----------------------------------------------------------------------------------------

/-- Reads one character or escape of a class. Classes do not nest, so an opening bracket has to
be escaped.
-/
def readClassPart : Reader Escape
  | [] => none
  | '\\' :: rest => readEscape rest
  | '[' :: _ => none
  | char :: rest => some (.char char, rest)

/-- The set of a single part. Assertions are no members of a class. -/
def Escape.set? : Escape → Option CharSet
  | .char member => some (.single member)
  | .set members => some members
  | .assertion _ => none

/-- The set of all characters from one part to another. -/
def rangeSet? : Escape → Escape → Option CharSet
  | .char low, .char high => if low ≤ high then some (.range low high) else none
  | _, _ => none

/-- The notation goes on with one of the doubled signs for operations on classes. -/
def opensOperation : List Char → Bool
  | first :: second :: _ => first = second && (first = '&' || first = '-' || first = '~')
  | _ => false

/-- Reads a character, an escape or a range of a class. A hyphen before the closing bracket
stands for itself.
-/
def readClassItem : Reader CharSet := fun chars => do
  if opensOperation chars then none
  else
    let (first, rest) ← readClassPart chars
    match rest with
    | '-' :: ']' :: _ => pure (← first.set?, rest)
    | '-' :: '-' :: _ => none
    | '-' :: rest =>
        let (last, rest) ← readClassPart rest
        pure (← rangeSet? first last, rest)
    | _ => pure (← first.set?, rest)

/-- Reads items of a class up to its closing bracket. Each item takes a character at least, so
there are no more of them than characters.
-/
def readClassItems : (items : Nat) → CharSet → Reader CharSet
  | _, set, ']' :: rest => some (set, rest)
  | 0, _, _ => none
  | items + 1, set, chars => do
      let (item, rest) ← readClassItem chars
      readClassItems items (set.add item) rest

/-- Reads the hyphens at the start of a class, which stand for themselves. -/
def readHyphens (set : CharSet) : List Char → CharSet × List Char
  | '-' :: rest => readHyphens (set.add (.single '-')) rest
  | chars => (set, chars)

/-- Reads a class after its opening bracket and the sign of negation. A closing bracket right at
the start stands for itself.
-/
def readClass : Reader CharSet := fun chars =>
  match readHyphens .empty chars with
  | (.empty, ']' :: rest) => readClassItems rest.length (.single ']') rest
  | (set, rest) => readClassItems rest.length set rest

/-- Reads a class after its opening bracket. -/
def readBracket : Reader Lexeme
  | '^' :: rest => (readClass rest).map fun (set, rest) => (.bracket true set, rest)
  | chars => (readClass chars).map fun (set, rest) => (.bracket false set, rest)

-----------------------------------------------------------------------------------------
-- Groups
-----------------------------------------------------------------------------------------

/-- The flag with this letter. -/
def flag? : Char → Option Flag
  | 'i' => some .ignoreCase
  | 'm' => some .multiLine
  | 's' => some .dotAll
  | _ => none

/-- Reads letters of flags up to a colon or a closing parenthesis. No flag occurs twice, there
is one sign of negation at most, and a flag follows it.
-/
def readFlags (change : FlagChange) (negated : Bool) : Reader (FlagChange × Char)
  | [] => none
  | char :: rest =>
      if char = ':' ∨ char = ')' then
        if negated ∧ change.switchedOff = [] then none else some ((change, char), rest)
      else if char = '-' then
        if negated then none else readFlags change true rest
      else do
        let flag ← flag? char
        if flag ∈ change.switchedOn ∨ flag ∈ change.switchedOff then none
        else if negated then
          readFlags { change with switchedOff := flag :: change.switchedOff } true rest
        else
          readFlags { change with switchedOn := flag :: change.switchedOn } false rest

/-- Names start with a letter or an underscore. -/
def startsName (char : Char) : Bool :=
  char = '_' || Unicode.isAlphabetic char

/-- Names go on with letters, numbers, underscores, dots and brackets. -/
def continuesName (char : Char) : Bool :=
  startsName char || Unicode.isNumeric char || char = '.' || char = '[' || char = ']'

/-- Reads the name of a group after its opening angle bracket. -/
def readName : Reader String
  | [] => none
  | char :: rest =>
      if startsName char then
        match rest.span continuesName with
        | (more, '>' :: rest) => some (String.ofList (char :: more), rest)
        | _ => none
      else none

/-- Reads the rest of an opening parenthesis: a plain group, a group with a name, or flags. -/
def readOpening : Reader Lexeme
  | '?' :: 'P' :: '<' :: rest =>
      (readName rest).map fun (name, rest) => (.openCapture (some name), rest)
  | '?' :: '<' :: rest =>
      (readName rest).map fun (name, rest) => (.openCapture (some name), rest)
  | '?' :: rest => do
      let ((change, mark), rest) ← readFlags {} false rest
      if mark = ':' then pure (.openPlain change, rest)
      else if change = {} then none
      else pure (.flags change, rest)
  | rest => some (.openCapture none, rest)

-----------------------------------------------------------------------------------------
-- Repetitions
-----------------------------------------------------------------------------------------

/-- Reads a decimal number with blanks around it. -/
def readCount : Reader Nat := fun chars =>
  let (digits, rest) := (chars.dropWhile Unicode.isSpace).span Char.isDigit
  let count := digits.foldl (fun value digit => value * 10 + (digit.toNat - '0'.toNat)) 0
  if digits = [] ∨ UInt32.size ≤ count then none
  else some (count, rest.dropWhile Unicode.isSpace)

/-- Reads the question mark that makes a repetition lazy. -/
def readRepetition (least : Nat) (most : Option Nat) : Reader Lexeme
  | '?' :: rest => some (.repetition least most false, rest)
  | rest => some (.repetition least most true, rest)

/-- Reads the counts of a repetition after the opening brace. -/
def readCounts : Reader Lexeme := fun chars => do
  let (least, rest) ← readCount chars
  match rest with
  | '\x7d' :: rest => readRepetition least (some least) rest
  | ',' :: '\x7d' :: rest => readRepetition least none rest
  | ',' :: rest =>
      let (most, rest) ← readCount rest
      match rest with
      | '\x7d' :: rest => if most < least then none else readRepetition least (some most) rest
      | _ => none
  | _ => none

-----------------------------------------------------------------------------------------
-- All lexemes
-----------------------------------------------------------------------------------------

/-- The lexeme of an escape outside of a class. -/
def Escape.lexeme : Escape → Lexeme
  | .char literal => .char literal
  | .set members => .set members
  | .assertion condition => .assertion condition

/-- Reads the lexeme that starts with the given character. -/
def readLexeme (char : Char) : Reader Lexeme := fun rest =>
  match char with
  | '(' => readOpening rest
  | ')' => some (.close, rest)
  | '|' => some (.bar, rest)
  | '[' => readBracket rest
  | '?' => readRepetition 0 (some 1) rest
  | '*' => readRepetition 0 none rest
  | '+' => readRepetition 1 none rest
  | '\x7b' => readCounts rest
  | '\\' => (readEscape rest).map fun (escape, rest) => (escape.lexeme, rest)
  | '.' => some (.dot, rest)
  | '^' => some (.caret, rest)
  | '$' => some (.dollar, rest)
  | _ => some (.char char, rest)

/-- Reads so many lexemes at most, which have to be all. -/
def readLexemes : (lexemes : Nat) → List Char → Option (List Lexeme)
  | _, [] => some []
  | 0, _ :: _ => none
  | lexemes + 1, char :: rest => do
      let (lexeme, rest) ← readLexeme char rest
      pure (lexeme :: (← readLexemes lexemes rest))

/-- The lexemes of a notation. Each takes a character at least. -/
def lexemes? (written : List Char) : Option (List Lexeme) :=
  readLexemes written.length written

end TokenGrammar.Regex
