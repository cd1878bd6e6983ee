import TokenGrammar.Parser.Literal
import TokenGrammar.Parser.Pattern
import TokenGrammar.Parser.Structure

/-! Grammars as data, and the parsers that they denote. A grammar may name rules, so a language
is a set of rules together with the meaning of the actions that occur in them.
-/

namespace TokenGrammar

/-- How to word an error anew. -/
abbrev Rewording :=
  ParseError → ParseError

namespace Rewording

/-- The message replaces the error where it was. -/
def replaced (message : String) : Rewording := fun error =>
  .custom message error.index

/-- The message is merged with the error where it was. -/
def merged (message : String) : Rewording := fun error =>
  .alternatives [error, replaced message error] error.index

end Rewording

/-- A grammar with rules named by ρ and actions from κ. Lookahead and delimiters are optional. -/
inductive Grammar (ρ κ : Type) where
  | literal (literal : Literal)
  | pattern (pattern : Pattern)
  | fail (message : String)
  | emit (size : Nat) (kind : Kind)
  | ignored (body : Grammar ρ κ)
  | optional (body : Grammar ρ κ)
  | choice (bodies : List (Grammar ρ κ))
  | sequence (bodies : List (Grammar ρ κ)) (ahead : Option (Grammar ρ κ))
  | list (item : Grammar ρ κ) (delimiter ahead : Option (Grammar ρ κ))
  | act (action : κ) (body : Grammar ρ κ)
  | reword (rewording : Rewording) (body : Grammar ρ κ)
  | rule (name : ρ)

section Denotation

variable {ρ κ α : Type} (perform : κ → Token α → Except ParseError (Token α))
  (resolve : ρ → Parser α)

namespace Grammar

mutual

/-- The parser that a grammar denotes, given what its actions do and what its rules denote. -/
def parser : Grammar ρ κ → Parser α
  | .literal expected => expected.parser
  | .pattern expected => expected.parser
  | .fail message => Parser.fail message
  | .emit size kind => Parser.emit size kind .none
  | .ignored body => Parser.ignored body.parser
  | .optional body => Parser.optional body.parser
  | .choice bodies => Parser.choice (parsers bodies)
  | .sequence bodies ahead => Parser.sequence (parsers bodies) (parser? ahead)
  | .list item delimiter ahead =>
      Parser.list item.parser (parser? delimiter) (parser? ahead)
  | .act action body => Parser.refine (perform action) body.parser
  | .reword rewording body => Parser.reword rewording body.parser
  | .rule name => resolve name

/-- The parsers that several grammars denote. -/
def parsers : List (Grammar ρ κ) → List (Parser α)
  | [] => []
  | body :: rest => body.parser :: parsers rest

/-- The parser that a grammar denotes if it is present. -/
def parser? : Option (Grammar ρ κ) → Option (Parser α)
  | none => none
  | some body => some body.parser

end

end Grammar

end Denotation

/-- Rules that may refer to each other, and what the actions in them do. All rules that have a
definition are among the names.
-/
structure Language (ρ κ α : Type) where
  names : List ρ
  definition : ρ → Option (Grammar ρ κ)
  perform : κ → Token α → Except ParseError (Token α)

namespace Language

variable {ρ κ α : Type}

/-- The parser of a rule, in which rules are nested no deeper than the given depth. Beyond it,
and for rules without a definition, it comes to no answer.
-/
def rule (language : Language ρ κ α) : (depth : Nat) → ρ → Parser α
  | 0, _ => fun _ _ => .unresolved
  | depth + 1, name =>
      match language.definition name with
      | none => fun _ _ => .unresolved
      | some body => body.parser language.perform (language.rule depth)

/-- The parser of a grammar, in which rules are nested no deeper than the given depth. -/
def parserWithin (language : Language ρ κ α) (depth : Nat) (grammar : Grammar ρ κ) : Parser α :=
  grammar.parser language.perform (language.rule depth)

/-- A depth that suffices for every source of the given size, if any depth does. A rule that is
entered within itself at the same offset never ends, and all offsets past the end of the source
are alike.
-/
def depth (language : Language ρ κ α) (size : Nat) : Nat :=
  language.names.length * (size + 2)

/-- The parser of a grammar. -/
def parser (language : Language ρ κ α) (grammar : Grammar ρ κ) : Parser α :=
  fun source => language.parserWithin (language.depth source.size) grammar source

end Language

end TokenGrammar
