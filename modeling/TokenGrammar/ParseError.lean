/-! Parse errors: why and where no token was found. -/

namespace TokenGrammar

/-- Why a literal or a pattern did not match: the offset is no place in a source of the given
length, other text was found than expected, or the pattern written so has no match.
-/
inductive Mismatch where
  | invalidOffset (length : Nat)
  | literal (expected found : String)
  | pattern (written : String)
  deriving DecidableEq, Repr

/-- A failure to parse, located at a byte offset of the source. -/
inductive ParseError where
  | mismatch (cause : Mismatch) (index : Nat)
  | unexpectedEnd (index : Nat)
  | emptySequence (index : Nat)
  | emptyList (index : Nat)
  | alternatives (causes : List ParseError) (index : Nat)
  | custom (message : String) (index : Nat)

mutual

/-- Two errors have the same cause and location, and so have their own causes. -/
def ParseError.same : ParseError → ParseError → Bool
  | .mismatch cause index, .mismatch cause' index' => cause == cause' && index == index'
  | .unexpectedEnd index, .unexpectedEnd index' => index == index'
  | .emptySequence index, .emptySequence index' => index == index'
  | .emptyList index, .emptyList index' => index == index'
  | .alternatives causes index, .alternatives causes' index' =>
      sameErrors causes causes' && index == index'
  | .custom message index, .custom message' index' => message == message' && index == index'
  | _, _ => false

/-- Two lists of errors are as long and equal error by error. -/
def sameErrors : List ParseError → List ParseError → Bool
  | [], [] => true
  | error :: rest, error' :: rest' => error.same error' && sameErrors rest rest'
  | _, _ => false

end

instance : BEq ParseError := ⟨ParseError.same⟩

/-- The classes of parse errors. -/
inductive ErrorKind where
  | mismatch
  | unexpectedEnd
  | emptySequence
  | emptyList
  | alternatives
  | custom
  deriving DecidableEq, Repr

namespace ParseError

/-- The class of the error. -/
def kind : ParseError → ErrorKind
  | .mismatch .. => .mismatch
  | .unexpectedEnd .. => .unexpectedEnd
  | .emptySequence .. => .emptySequence
  | .emptyList .. => .emptyList
  | .alternatives .. => .alternatives
  | .custom .. => .custom

/-- The offset where the error was detected. -/
def index : ParseError → Nat
  | .mismatch _ index => index
  | .unexpectedEnd index => index
  | .emptySequence index => index
  | .emptyList index => index
  | .alternatives _ index => index
  | .custom _ index => index

/-- The errors that were merged into this one. -/
def causes : ParseError → List ParseError
  | .alternatives causes _ => causes
  | _ => []

end ParseError

/-- The wording of a mismatch. -/
def Mismatch.message : Mismatch → String
  | .invalidOffset length => "invalid offset into input of length " ++ toString length
  | .literal expected found => "expected \"" ++ expected ++ "\", found \"" ++ found ++ "\""
  | .pattern written => "cannot match /" ++ written ++ "/"

/-- A message together with the offset to which it applies. -/
def located (message : String) (index : Nat) : String :=
  message ++ " at " ++ toString index

mutual

/-- The wording of an error, without its location. A merged error shows each of its causes on
lines of their own.
-/
def ParseError.message : ParseError → String
  | .mismatch cause _ => cause.message
  | .unexpectedEnd _ => "unexpected end of input"
  | .emptySequence _ => "cannot match sequence"
  | .emptyList _ => "cannot match list"
  | .alternatives causes _ => "multiple errors occurred:" ++ displayLines causes
  | .custom message _ => message

/-- The wording of an error and its location. -/
def ParseError.display : ParseError → String
  | .mismatch cause index => located cause.message index
  | .unexpectedEnd index => located "unexpected end of input" index
  | .emptySequence index => located "cannot match sequence" index
  | .emptyList index => located "cannot match list" index
  | .alternatives causes index =>
      located ("multiple errors occurred:" ++ displayLines causes) index
  | .custom message index => located message index

/-- Each error on a line of its own. -/
def displayLines : List ParseError → String
  | [] => ""
  | error :: rest => "\n" ++ error.display ++ displayLines rest

end

end TokenGrammar
