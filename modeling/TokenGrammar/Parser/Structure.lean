import TokenGrammar.Parser.Basic

/-! Parsers built from other parsers. Tokens of kind ignore consume text, but do not become part
of the tokens that contain them.
-/

namespace TokenGrammar.Parser

variable {α : Type}

-----------------------------------------------------------------------------------------
-- One parser
-----------------------------------------------------------------------------------------

/-- Consumes what the parser reads, without keeping it. -/
def ignored (parser : Parser α) : Parser α := fun source index =>
  (parser source index).map Token.ignore

/-- Reads what the parser reads, or nothing. -/
def optional (parser : Parser α) : Parser α := fun source index =>
  (parser source index).recover fun error =>
    (Reply.matched (Token.ignored index 0)).noting (.optionalSkipped error)

/-- Changes or rejects the token that the parser reads. -/
def refine (change : Token α → Except ParseError (Token α)) (parser : Parser α) : Parser α :=
  fun source index =>
    (parser source index).bind fun token =>
      match change token with
      | .ok changed => .matched changed
      | .error error => .failed error

/-- Changes the error with which the parser fails. -/
def reword (change : ParseError → ParseError) (parser : Parser α) : Parser α :=
  fun source index => (parser source index).recover fun error => .failed (change error)

-----------------------------------------------------------------------------------------
-- Ordered choice
-----------------------------------------------------------------------------------------

/-- Tries the parsers in order after the given errors, newest first. -/
def choiceAfter (source : Source) (index : Nat)
    : List ParseError → List (Parser α) → Reply (Token α)
  | errors, [] => .failed (.alternatives errors.reverse index)
  | errors, parser :: rest =>
      (parser source index).fold
        (fun token =>
          (Reply.matched token).noting (.alternativeMatched errors.length index))
        (fun error => choiceAfter source index (error :: errors) rest)

/-- Reads what the first matching parser reads, all of them starting at the same offset. -/
def choice (parsers : List (Parser α)) : Parser α := fun source index =>
  choiceAfter source index [] parsers

-----------------------------------------------------------------------------------------
-- Runs
-----------------------------------------------------------------------------------------

/-- What parsers have read one after the other: the tokens to keep and the offset just after
all that they consumed.
-/
structure Run (α : Type) where
  items : List (Token α)
  stop : Nat

/-- A run that ends where it starts. -/
def Run.empty (index : Nat) : Run α :=
  { items := [], stop := index }

/-- The run that starts with one more token, of which only the span matters if it is ignored. -/
def Run.keep (token : Token α) (run : Run α) : Run α :=
  if token.isIgnored then run else { run with items := token :: run.items }

/-- The token with all tokens of a run, which has to keep at least one. -/
def Run.close (name : String) (onEmpty : Nat → ParseError) (index : Nat) (run : Run α)
    : Reply (Token α) :=
  if run.items.isEmpty then .failed (onEmpty run.stop)
  else
    .matched
      { index, size := run.stop - index, kind := .named name, value := .tokens run.items }

/-- Goes on differently if a parser that only looks ahead is present and matches. -/
def ifAhead {β : Type} (ahead : Option (Parser α)) (source : Source) (index : Nat)
    (present absent : Reply β)
    : Reply β :=
  match ahead with
  | none => absent
  | some parser => (parser source index).fold (fun _ => present) (fun _ => absent)

-----------------------------------------------------------------------------------------
-- Sequences
-----------------------------------------------------------------------------------------

/-- Runs the parsers one after the other. If one fails, the run still succeeds where the
lookahead matches, unless the source is exhausted.
-/
def runSequence (ahead : Option (Parser α)) (source : Source)
    : List (Parser α) → Nat → Reply (Run α)
  | [], cursor => .matched (.empty cursor)
  | parser :: rest, cursor =>
      (parser source cursor).fold
        (fun token => (runSequence ahead source rest token.stop).map (Run.keep token))
        (fun error =>
          if source.size ≤ cursor then .failed (.unexpectedEnd cursor)
          else
            ifAhead ahead source cursor
              ((Reply.matched (.empty cursor)).noting (.sequenceStopped cursor))
              (.failed error))

/-- Reads what all parsers read one after the other. -/
def sequence (parsers : List (Parser α)) (ahead : Option (Parser α)) : Parser α :=
  fun source index =>
    (runSequence ahead source parsers index).bind
      (Run.close "sequence" .emptySequence index)

-----------------------------------------------------------------------------------------
-- Lists
-----------------------------------------------------------------------------------------

/-- Runs the delimiter, if there is one, and yields the offset after it, or nothing if it fails. -/
def runDelimiter (delimiter : Option (Parser α)) (source : Source) (cursor : Nat)
    : Reply (Option Nat) :=
  match delimiter with
  | none => .matched (some cursor)
  | some parser =>
      (parser source cursor).fold (fun token => .matched (some token.stop))
        (fun _ => .matched none)

/-- Alternates items and delimiters until the source is exhausted, the lookahead matches after
an item, a delimiter fails, or an item and its delimiter consume nothing. Each round that goes
on consumes at least one byte, so the rounds are bounded by the bytes that are left.
-/
def runList (item : Parser α) (delimiter ahead : Option (Parser α)) (source : Source)
    : (rounds : Nat) → Nat → Reply (Run α)
  | 0, cursor => if source.size ≤ cursor then .matched (.empty cursor) else .unresolved
  | rounds + 1, cursor =>
      if source.size ≤ cursor then .matched (.empty cursor)
      else
        (item source cursor).bind fun token =>
          Reply.map (Run.keep token) <|
            ifAhead ahead source token.stop
              ((Reply.matched (.empty token.stop)).noting (.listEnded token.stop))
              ((runDelimiter delimiter source token.stop).bind fun next =>
                match next with
                | none => .matched (.empty token.stop)
                | some next =>
                    if next = cursor then
                      (Reply.matched (.empty next)).noting (.listStalled next)
                    else
                      runList item delimiter ahead source rounds next)

/-- Reads items, with delimiters between them if there are any; a delimiter after the last item
is consumed.
-/
def list (item : Parser α) (delimiter ahead : Option (Parser α)) : Parser α :=
  fun source index =>
    (runList item delimiter ahead source (source.size - index) index).bind
      (Run.close "list" .emptyList index)

end TokenGrammar.Parser
