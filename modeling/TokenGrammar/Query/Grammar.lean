import TokenGrammar.Binary64.Reader
import TokenGrammar.Grammar.Basic
import TokenGrammar.Query.Basic
import TokenGrammar.Regex.Pattern

/-! The language of queries: columns selected from tables, joined under tests and filtered by a
test. Keywords may be written in any case.
-/

namespace TokenGrammar.Query

open Regex (CharSet)

-----------------------------------------------------------------------------------------
-- Patterns
-----------------------------------------------------------------------------------------

/-- Any amount of white space. -/
def blank : Regex :=
  .zeroOrMore (.oneOf .space)

/-- Some white space. -/
def gap : Regex :=
  .oneOrMore (.oneOf .space)

/-- The letters of a word, each in any case. -/
def letters (word : String) : List Regex :=
  word.toList.map fun char => .oneOf (.folded (.single char))

/-- A keyword with white space after it, and perhaps before it. -/
def keywordPattern (word : String) : Pattern :=
  Regex.pattern (.sequence (blank :: letters word ++ [gap])) ("(?i)\\s*" ++ word ++ "\\s+")

/-- The keyword in front of the columns. -/
def selectPattern : Pattern :=
  keywordPattern "SELECT"

/-- The keyword in front of the tables. -/
def fromPattern : Pattern :=
  keywordPattern "FROM"

/-- The keyword in front of a joined table. -/
def joinPattern : Pattern :=
  keywordPattern "JOIN"

/-- The keyword in front of the test of a join, with white space on both sides. -/
def onPattern : Pattern :=
  Regex.pattern (.sequence (gap :: letters "ON" ++ [gap])) "(?i)\\s+ON\\s+"

/-- The keyword in front of the filter. -/
def wherePattern : Pattern :=
  keywordPattern "WHERE"

/-- The keyword in front of the filter, to look ahead for. -/
def whereAheadPattern : Pattern :=
  Regex.pattern (.sequence (blank :: letters "WHERE" ++ [.test .wordBoundary]))
    "(?i)\\s*WHERE\\b"

/-- White space. -/
def gapPattern : Pattern :=
  gap.pattern "\\s+"

/-- A comma, perhaps with white space around it. -/
def commaPattern : Pattern :=
  Regex.pattern (.sequence [blank, .literal ',', blank]) "\\s*,\\s*"

/-- The dot between a table and its column. -/
def dotPattern : Pattern :=
  Regex.pattern (.literal '.') "\\."

/-- A letter, then letters, digits and underscores. -/
def namePattern : Pattern :=
  Regex.pattern
    (.sequence
      [.oneOf (.folded (.range 'a' 'z')),
        .zeroOrMore
          (.oneOf
            (.folded
              (.union (.union (.range 'a' 'z') (.range '0' '9')) (.single '_'))))])
    "(?i)[a-z][a-z0-9_]*"

/-- Digits, perhaps with a point and more digits. -/
def numberPattern : Pattern :=
  Regex.pattern
    (.sequence
      [.oneOrMore (.oneOf .digit),
        .zeroOrOne (.capture 1 none (.sequence [.literal '.', .oneOrMore (.oneOf .digit)]))])
    "\\d+(\\.\\d+)?"

/-- A text in single quotes, in which quotes are doubled. -/
def stringPattern : Pattern :=
  Regex.pattern
    (.sequence
      [.literal '\'',
        .capture 1 none
          (.zeroOrMore
            (.either (.oneOf (.complement (.single '\'')))
              (.sequence [.literal '\'', .literal '\'']))),
        .literal '\''])
    "'((?:[^']|'')*)'"

/-- The captured sign of a comparison, perhaps with white space around it. -/
def comparisonPattern : Pattern :=
  let twoSigns (first second : Char) : Regex := .sequence [.literal first, .literal second]
  Regex.pattern
    (.sequence
      [blank,
        .capture 1 none
          (.choice (twoSigns '<' '=')
            [twoSigns '>' '=', twoSigns '<' '>', .literal '=', .literal '<', .literal '>']),
        blank])
    "\\s*(<=|>=|<>|=|<|>)\\s*"

-----------------------------------------------------------------------------------------
-- Actions
-----------------------------------------------------------------------------------------

/-- What becomes of the tokens of some rules. -/
inductive Action where
  | number
  | string
  | name (kind : String)
  | column
  | test
  | filter
  | join
  | tables
  | selection
  | query
  deriving DecidableEq, Repr

/-- The text of a group of a pattern. -/
def groupText? (number : Nat) (token : Tree) : Option String :=
  token.value.groups?.bind (·.get? number)

/-- The text with each doubled quote made single. -/
def unquoted : List Char → List Char
  | '\'' :: '\'' :: rest => '\'' :: unquoted rest
  | char :: rest => char :: unquoted rest
  | [] => []

/-- The column of a table, from their names. -/
def column? : List Tree → Option (Value Node)
  | [table, column] => do
      let table ← table.value.text?
      let column ← column.value.text?
      pure (.custom (.column table column))
  | _ => none

/-- The comparison of two values. -/
def test? : List Tree → Option (Value Node)
  | [left, sign, right] => do
      let operator ← groupText? 1 sign
      pure (.custom (.test left operator right))
  | _ => none

/-- The test of a filter. -/
def filter? : List Tree → Option (Value Node)
  | [test] => some (.token test)
  | _ => none

/-- The join of a table, from its name and a test. -/
def join? : List Tree → Option (Value Node)
  | [table, test] => do
      let table ← table.value.text?
      pure (.custom (.join table test))
  | _ => none

/-- The tables of a query, from the name of the first one and a list of joins, if there is one.
-/
def tables? : List Tree → Option (Value Node)
  | first :: rest => do
      let first ← first.value.text?
      let joins := (rest.head?.bind (·.value.tokens?)).getD []
      pure (.custom (.tables first joins))
  | [] => none

/-- The columns of a selection, from a list of them. -/
def selection? : List Tree → Option (Value Node)
  | [columns] => columns.value.tokens?.map .tokens
  | _ => none

/-- The whole query, from its selection, its tables and its filter, if there is one. -/
def query? : List Tree → Option (Value Node)
  | selection :: tables :: rest => do
      let columns ← selection.value.tokens?
      pure (.custom (.query columns tables rest.head?))
  | _ => none

/-- Relabels the token of a sequence, with a value made from the tokens in it. -/
def assemble (kind : String) (make : List Tree → Option (Value Node)) (token : Tree)
    : Except ParseError Tree :=
  match make (token.value.tokens?.getD []) with
  | some value => .ok (token.relabel (.named kind) value)
  | none => .error (.custom ("malformed " ++ kind) token.index)

/-- The token of a rule, made from the token of its grammar. -/
def Action.perform : Action → Tree → Except ParseError Tree
  | .number, token =>
      match Binary64.read ((groupText? 0 token).getD "") with
      | .ok value => .ok (token.relabel (.named "number") (.custom (.number value)))
      | .error error => .error (.custom ("invalid number: " ++ error.message) token.index)
  | .string, token =>
      let content := unquoted ((groupText? 1 token).getD "").toList
      .ok (token.relabel (.named "string") (.text (String.ofList content)))
  | .name kind, token =>
      .ok (token.relabel (.named kind) (.text ((groupText? 0 token).getD "")))
  | .column, token => assemble "column-id" column? token
  | .test, token => assemble "value-test" test? token
  | .filter, token => assemble "where" filter? token
  | .join, token => assemble "join" join? token
  | .tables, token => assemble "from" tables? token
  | .selection, token => assemble "select" selection? token
  | .query, token => assemble "query" query? token

-----------------------------------------------------------------------------------------
-- Rules
-----------------------------------------------------------------------------------------

/-- A grammar of the language, which needs no rules that refer to each other. -/
abbrev QueryGrammar := Grammar Empty Action

/-- A number. -/
def number : QueryGrammar :=
  .act .number (.pattern numberPattern)

/-- A text in quotes. -/
def string : QueryGrammar :=
  .act .string (.pattern stringPattern)

/-- A name that becomes a token of the given kind. -/
def name (kind : String) : QueryGrammar :=
  .act (.name kind) (.pattern namePattern)

/-- A table and its column, with a dot between them. -/
def column : QueryGrammar :=
  .act .column
    (.sequence [name "table-name", .ignored (.pattern dotPattern), name "column-name"] none)

/-- Something to compare. -/
def operand : QueryGrammar :=
  .choice [column, number, string]

/-- A comparison. -/
def test : QueryGrammar :=
  .act .test (.sequence [operand, .pattern comparisonPattern, operand] none)

/-- The filter of a query. -/
def filter : QueryGrammar :=
  .act .filter (.sequence [.ignored (.pattern wherePattern), test] none)

/-- A joined table and the test of its rows. -/
def join : QueryGrammar :=
  .act .join
    (.sequence
      [.ignored (.pattern joinPattern), name "table-name", .ignored (.pattern onPattern), test]
      none)

/-- The tables of a query. The list of joins ends before a filter. -/
def tables : QueryGrammar :=
  .act .tables
    (.sequence
      [.ignored (.pattern fromPattern), name "table-name",
        .optional (.list join (some (.pattern gapPattern)) (some (.pattern whereAheadPattern)))]
      none)

/-- The columns of a query. -/
def selection : QueryGrammar :=
  .act .selection
    (.sequence
      [.ignored (.pattern selectPattern), .list column (some (.pattern commaPattern)) none] none)

/-- A whole query. -/
def query : QueryGrammar :=
  .act .query
    (.sequence
      [selection, .ignored (.pattern gapPattern), tables,
        .ignored (.optional (.pattern gapPattern)), .optional filter]
      none)

/-- The language of queries. -/
def language : Language Empty Action Node :=
  { names := []
    definition := fun _ => none
    perform := Action.perform }

/-- The parser of a grammar of the language. -/
def parser (grammar : QueryGrammar) : Parser Node :=
  language.parser grammar

-----------------------------------------------------------------------------------------
-- Whole texts
-----------------------------------------------------------------------------------------

/-- Reads a query with nothing but white space after it. -/
def parse (source : Source) : Reply Tree :=
  (parser query source 0).bind fun tree =>
    if source.isBlankFrom tree.stop then .matched tree
    else .failed (.custom "unexpected input after query" tree.stop)

end TokenGrammar.Query
