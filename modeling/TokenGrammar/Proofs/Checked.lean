import TokenGrammar.Grammar.Basic

/-! Reading with checks. Each slice of the source, each end of a token and each length of a run is
checked before it is used, and a check that fails stops everything: no alternative is tried
after it.
-/

namespace TokenGrammar

variable {α β γ : Type}

-----------------------------------------------------------------------------------------
-- Checks
-----------------------------------------------------------------------------------------

/-- What can be wrong: a slice that is out of range or cuts a character, a token whose end is no
64-bit number, or a run that ends before it starts.
-/
inductive Fault where
  | slice (start stop : Nat)
  | overflow (index size : Nat)
  | underflow (stop start : Nat)

/-- A reply, unless a check fails on the way to it. -/
inductive Checked (β : Type) where
  | reply (reply : Reply β)
  | fault (fault : Fault)

/-- Goes on with the characters from the offset to the end of the source. -/
def Source.checkedRest (source : Source) (index : Nat) (next : List Char → Checked β)
    : Checked β :=
  match source.slice? index source.size with
  | some rest => next rest
  | none => .fault (.slice index source.size)

/-- Goes on with the offset just after the token. -/
def Token.checkedStop (token : Token α) (next : Nat → Checked β) : Checked β :=
  if token.index + token.size < UInt64.size then next token.stop
  else .fault (.overflow token.index token.size)

namespace Checked

/-- The same with the given events in front of a reply. -/
def after (trace : Trace) : Checked β → Checked β
  | .reply later => .reply (later.after trace)
  | .fault cause => .fault cause

/-- Goes on after a match or after a failure, each in its own way. -/
def fold (checked : Checked β) (onMatch : β → Checked γ) (onFailure : ParseError → Checked γ)
    : Checked γ :=
  match checked with
  | .fault cause => .fault cause
  | .reply first =>
      match first.outcome with
      | .matched result => (onMatch result).after first.trace
      | .failed error => (onFailure error).after first.trace
      | .unresolved => .reply { trace := first.trace, outcome := .unresolved }

/-- Goes on after a match. -/
def bind (checked : Checked β) (next : β → Checked γ) : Checked γ :=
  checked.fold next fun error => .reply (.failed error)

/-- Changes the result of a match. -/
def map (change : β → γ) (checked : Checked β) : Checked γ :=
  checked.bind fun result => .reply (.matched (change result))

/-- Goes on after a failure. -/
def recover (checked : Checked β) (handle : ParseError → Checked β) : Checked β :=
  checked.fold (fun result => .reply (.matched result)) handle

end Checked

/-- A parser that checks what it does. -/
abbrev CheckedParser (α : Type) := Source → Nat → Checked (Token α)

-----------------------------------------------------------------------------------------
-- Leaves
-----------------------------------------------------------------------------------------

/-- Compares the literal with a sample of the source, if the offset is a boundary. -/
def Literal.checked (literal : Literal) : CheckedParser α := fun source index =>
  if source.isBoundary index then
    source.checkedRest index fun rest =>
      let sample := rest.take literal.text.length
      let found := String.ofList sample
      if literal.accepts sample then
        .reply
          (.matched
            { index, size := byteLength sample, kind := .named "text", value := .text found })
      else .reply (.failed (.mismatch (.literal literal.text found) index))
  else .reply (.failed (.mismatch (.invalidOffset source.size) index))

/-- Matches the pattern against the rest of the source, if the offset is a boundary. -/
def Pattern.checked (pattern : Pattern) : CheckedParser α := fun source index =>
  if source.isBoundary index then
    source.checkedRest index fun _ => .reply (pattern.parser source index)
  else .reply (.failed (.mismatch (.pattern pattern.written) index))

-----------------------------------------------------------------------------------------
-- Combinators
-----------------------------------------------------------------------------------------

namespace CheckedParser

/-- Consumes what the parser reads, without keeping it. -/
def ignored (parser : CheckedParser α) : CheckedParser α := fun source index =>
  (parser source index).map Token.ignore

/-- Reads what the parser reads, or nothing. -/
def optional (parser : CheckedParser α) : CheckedParser α := fun source index =>
  (parser source index).recover fun error =>
    .reply ((Reply.matched (Token.ignored index 0)).noting (.optionalSkipped error))

/-- Changes or rejects the token that the parser reads. -/
def refine (change : Token α → Except ParseError (Token α)) (parser : CheckedParser α)
    : CheckedParser α :=
  fun source index =>
    (parser source index).bind fun token =>
      match change token with
      | .ok changed => .reply (.matched changed)
      | .error error => .reply (.failed error)

/-- Changes the error with which the parser fails. -/
def reword (change : ParseError → ParseError) (parser : CheckedParser α) : CheckedParser α :=
  fun source index =>
    (parser source index).recover fun error => .reply (.failed (change error))

/-- Tries the parsers in order after the given errors, newest first. -/
def choiceAfter (source : Source) (index : Nat)
    : List ParseError → List (CheckedParser α) → Checked (Token α)
  | errors, [] => .reply (.failed (.alternatives errors.reverse index))
  | errors, parser :: rest =>
      (parser source index).fold
        (fun token =>
          .reply ((Reply.matched token).noting (.alternativeMatched errors.length index)))
        (fun error => choiceAfter source index (error :: errors) rest)

/-- Reads what the first matching parser reads, all of them starting at the same offset. -/
def choice (parsers : List (CheckedParser α)) : CheckedParser α := fun source index =>
  choiceAfter source index [] parsers

/-- The token with all tokens of a run, which has to keep at least one. -/
def close (name : String) (onEmpty : Nat → ParseError) (index : Nat) (run : Parser.Run α)
    : Checked (Token α) :=
  if run.items.isEmpty then .reply (.failed (onEmpty run.stop))
  else if index ≤ run.stop then
    .reply
      (.matched
        { index, size := run.stop - index, kind := .named name, value := .tokens run.items })
  else .fault (.underflow run.stop index)

/-- Goes on differently if a parser that only looks ahead is present and matches. -/
def ifAhead (ahead : Option (CheckedParser α)) (source : Source) (index : Nat)
    (present absent : Checked β)
    : Checked β :=
  match ahead with
  | none => absent
  | some parser => (parser source index).fold (fun _ => present) (fun _ => absent)

/-- Runs the parsers one after the other, up to where one fails and the lookahead matches. -/
def runSequence (ahead : Option (CheckedParser α)) (source : Source)
    : List (CheckedParser α) → Nat → Checked (Parser.Run α)
  | [], cursor => .reply (.matched (.empty cursor))
  | parser :: rest, cursor =>
      (parser source cursor).fold
        (fun token =>
          token.checkedStop fun stop =>
            (runSequence ahead source rest stop).map (Parser.Run.keep token))
        (fun error =>
          if source.size ≤ cursor then .reply (.failed (.unexpectedEnd cursor))
          else
            ifAhead ahead source cursor
              (.reply ((Reply.matched (.empty cursor)).noting (.sequenceStopped cursor)))
              (.reply (.failed error)))

/-- Reads what all parsers read one after the other. -/
def sequence (parsers : List (CheckedParser α)) (ahead : Option (CheckedParser α))
    : CheckedParser α :=
  fun source index =>
    (runSequence ahead source parsers index).bind (close "sequence" .emptySequence index)

/-- Runs the delimiter, if there is one, and yields the offset after it, or nothing if it fails. -/
def runDelimiter (delimiter : Option (CheckedParser α)) (source : Source) (cursor : Nat)
    : Checked (Option Nat) :=
  match delimiter with
  | none => .reply (.matched (some cursor))
  | some parser =>
      (parser source cursor).fold
        (fun token => token.checkedStop fun stop => .reply (.matched (some stop)))
        (fun _ => .reply (.matched none))

/-- Alternates items and delimiters for as long as a list goes on. -/
def runList (item : CheckedParser α) (delimiter ahead : Option (CheckedParser α))
    (source : Source)
    : (rounds : Nat) → Nat → Checked (Parser.Run α)
  | 0, cursor =>
      if source.size ≤ cursor then .reply (.matched (.empty cursor)) else .reply .unresolved
  | rounds + 1, cursor =>
      if source.size ≤ cursor then .reply (.matched (.empty cursor))
      else
        (item source cursor).bind fun token =>
          token.checkedStop fun stop =>
            Checked.map (Parser.Run.keep token) <|
              ifAhead ahead source stop
                (.reply ((Reply.matched (.empty stop)).noting (.listEnded stop)))
                ((runDelimiter delimiter source stop).bind fun next =>
                  match next with
                  | none => .reply (.matched (.empty stop))
                  | some next =>
                      if next = cursor then
                        .reply ((Reply.matched (.empty next)).noting (.listStalled next))
                      else runList item delimiter ahead source rounds next)

/-- Reads items, with delimiters between them if there are any. -/
def list (item : CheckedParser α) (delimiter ahead : Option (CheckedParser α))
    : CheckedParser α :=
  fun source index =>
    (runList item delimiter ahead source (source.size - index) index).bind
      (close "list" .emptyList index)

end CheckedParser

-----------------------------------------------------------------------------------------
-- Grammars and languages
-----------------------------------------------------------------------------------------

section Denotation

variable {ρ κ : Type} (perform : κ → Token α → Except ParseError (Token α))
  (resolve : ρ → CheckedParser α)

namespace Grammar

mutual

/-- The parser with checks that a grammar denotes. -/
def checked : Grammar ρ κ → CheckedParser α
  | .literal expected => expected.checked
  | .pattern expected => expected.checked
  | .fail message => fun source index => .reply (Parser.fail message source index)
  | .emit size kind => fun source index => .reply (Parser.emit size kind .none source index)
  | .ignored body => CheckedParser.ignored body.checked
  | .optional body => CheckedParser.optional body.checked
  | .choice bodies => CheckedParser.choice (checkedAll bodies)
  | .sequence bodies ahead => CheckedParser.sequence (checkedAll bodies) (checked? ahead)
  | .list item delimiter ahead =>
      CheckedParser.list item.checked (checked? delimiter) (checked? ahead)
  | .act action body => CheckedParser.refine (perform action) body.checked
  | .reword rewording body => CheckedParser.reword rewording body.checked
  | .rule name => resolve name

/-- The parsers with checks that several grammars denote. -/
def checkedAll : List (Grammar ρ κ) → List (CheckedParser α)
  | [] => []
  | body :: rest => body.checked :: checkedAll rest

/-- The parser with checks that a grammar denotes if it is present. -/
def checked? : Option (Grammar ρ κ) → Option (CheckedParser α)
  | none => none
  | some body => some body.checked

end

end Grammar

end Denotation

namespace Language

variable {ρ κ : Type}

/-- The parser with checks of a rule, in which rules are nested no deeper than the given depth. -/
def checkedRule (language : Language ρ κ α) : (depth : Nat) → ρ → CheckedParser α
  | 0, _ => fun _ _ => .reply .unresolved
  | depth + 1, name =>
      match language.definition name with
      | none => fun _ _ => .reply .unresolved
      | some body => body.checked language.perform (language.checkedRule depth)

/-- The parser with checks of a grammar. -/
def checked (language : Language ρ κ α) (grammar : Grammar ρ κ) : CheckedParser α :=
  fun source =>
    grammar.checked language.perform (language.checkedRule (language.depth source.size)) source

end Language

end TokenGrammar
