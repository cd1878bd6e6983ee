import TokenGrammar.Proofs.Sequences
import TokenGrammar.Query.Grammar

/-! The parsers of the grammars of queries. Proofs about the language rewrite with these equations
and never unfold it.
-/

namespace TokenGrammar.Query

/-- The grammars of queries do not depend on what rules mean, as there are none. -/
theorem parser_eq (grammar : QueryGrammar)
    : parser grammar = grammar.parser Action.perform Empty.elim := by
  have hresolve (depth : Nat) : language.rule depth = Empty.elim := funext nofun
  funext source
  rw [parser, Language.parser, Language.parserWithin, hresolve]
  rfl

/-- The parser of a token that is assembled from the tokens of other parsers. -/
def assembled (kind : String) (make : List Tree → Option (Value Node))
    (parsers : List (Parser Node))
    : Parser Node :=
  Parser.refine (assemble kind make) (Parser.sequence parsers none)

theorem parser_number
    : parser number = Parser.refine (Action.perform .number) numberPattern.parser := by
  rw [parser_eq]
  rfl

theorem parser_string
    : parser string = Parser.refine (Action.perform .string) stringPattern.parser := by
  rw [parser_eq]
  rfl

theorem parser_name (kind : String)
    : parser (name kind) = Parser.refine (Action.perform (.name kind)) namePattern.parser := by
  rw [parser_eq]
  rfl

/-- A column is a name of a table, a dot that is ignored and a name in the table. -/
theorem parser_column
    : parser column
      = assembled "column-id" column?
          [parser (name "table-name"), Parser.ignored dotPattern.parser,
            parser (name "column-name")] := by
  simp only [parser_eq]
  rfl

theorem parser_operand
    : parser operand = Parser.choice [parser column, parser number, parser string] := by
  simp only [parser_eq]
  rfl

theorem parser_test
    : parser test
      = assembled "value-test" test?
          [parser operand, comparisonPattern.parser, parser operand] := by
  simp only [parser_eq]
  rfl

theorem parser_filter
    : parser filter
      = assembled "where" filter? [Parser.ignored wherePattern.parser, parser test] := by
  simp only [parser_eq]
  rfl

theorem parser_join
    : parser join
      = assembled "join" join?
          [Parser.ignored joinPattern.parser, parser (name "table-name"),
            Parser.ignored onPattern.parser, parser test] := by
  simp only [parser_eq]
  rfl

/-- The parser of the joins of a query, of which there has to be one at least. -/
def joins : Parser Node :=
  Parser.list (parser join) (some gapPattern.parser) (some whereAheadPattern.parser)

/-- Tables are a keyword that is ignored, the first table and the joins, if there are any. -/
theorem parser_tables
    : parser tables
      = assembled "from" tables?
          [Parser.ignored fromPattern.parser, parser (name "table-name"),
            Parser.optional joins] := by
  simp only [joins, parser_eq]
  rfl

/-- The parser of the columns of a query. -/
def columns : Parser Node :=
  Parser.list (parser column) (some commaPattern.parser) none

theorem parser_selection
    : parser selection
      = assembled "select" selection? [Parser.ignored selectPattern.parser, columns] := by
  simp only [columns, parser_eq]
  rfl

/-- A query is a selection, the tables and perhaps a filter. The white space between them is
ignored, as it is in front of a filter that may be missing.
-/
theorem parser_query
    : parser query
      = assembled "query" query?
          [parser selection, Parser.ignored gapPattern.parser, parser tables,
            Parser.ignored (Parser.optional gapPattern.parser),
            Parser.optional (parser filter)] := by
  simp only [parser_eq]
  rfl

section Readings

variable {source : Source} {index : Nat} {tree : Tree}

/-- A token is assembled from the kept tokens of a run, and covers the whole run, since no
parser of it may fail.
-/
theorem assembled_reads_iff {kind : String} {make : List Tree → Option (Value Node)}
    {parsers : List (Parser Node)}
    : (assembled kind make parsers).Reads source index tree
      ↔ ∃ tokens stop value,
          Parser.Consecutive source parsers index tokens stop
          ∧ Parser.kept tokens ≠ []
          ∧ make (Parser.kept tokens) = some value
          ∧ { index, size := stop - index, kind := .named kind, value } = tree := by
  simp only [assembled, Parser.refine_reads_iff, Parser.sequence_none_reads_iff]
  constructor
  · rintro ⟨_, ⟨tokens, stop, hrun, hkept, rfl⟩, hmake⟩
    simp only [assemble, Value.tokens?, Option.getD_some] at hmake
    split at hmake
    case h_1 value hvalue =>
      exact ⟨tokens, stop, value, hrun, hkept, hvalue, Except.ok.inj hmake⟩
    case h_2 => contradiction
  · rintro ⟨tokens, stop, value, hrun, hkept, hvalue, rfl⟩
    refine ⟨_, ⟨tokens, stop, hrun, hkept, rfl⟩, ?_⟩
    simp only [assemble, Value.tokens?, Option.getD_some, hvalue]
    rfl

/-- A number is read if the text that its pattern matches is the text of a number. -/
theorem number_reads_iff
    : (parser number).Reads source index tree
      ↔ ∃ token value,
          numberPattern.parser.Reads source index token
          ∧ Binary64.read ((groupText? 0 token).getD "") = .ok value
          ∧ token.relabel (.named "number") (.custom (.number value)) = tree := by
  rw [parser_number, Parser.refine_reads_iff]
  refine exists_congr fun token => ?_
  cases hread : Binary64.read ((groupText? 0 token).getD "") <;> simp [Action.perform, hread]

/-- A string is read with what its pattern captures, in which quotes are made single. -/
theorem string_reads_iff
    : (parser string).Reads source index tree
      ↔ ∃ token,
          stringPattern.parser.Reads source index token
          ∧ token.relabel (.named "string")
              (.text (String.ofList (unquoted ((groupText? 1 token).getD "").toList)))
            = tree := by
  rw [parser_string, Parser.refine_reads_iff]
  simp [Action.perform]

theorem name_reads_iff {kind : String}
    : (parser (name kind)).Reads source index tree
      ↔ ∃ token,
          namePattern.parser.Reads source index token
          ∧ token.relabel (.named kind) (.text ((groupText? 0 token).getD "")) = tree := by
  rw [parser_name, Parser.refine_reads_iff]
  simp [Action.perform]

end Readings

end TokenGrammar.Query
