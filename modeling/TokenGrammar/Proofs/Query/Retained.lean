import TokenGrammar.Proofs.Arithmetic.Retained
import TokenGrammar.Proofs.Grammars
import TokenGrammar.Proofs.Query.Soundness

/-! What sequences retain for the rules of queries: keywords, dots and white space are dropped, and
so is what is optional where it is absent.
-/

namespace TokenGrammar.Query

open Arithmetic (IsBlank Framed)

-----------------------------------------------------------------------------------------
-- Tokens that actions expect
-----------------------------------------------------------------------------------------

/-- The token is of the kind and holds a text. -/
def HoldsText (kind : String) (tree : Tree) : Prop :=
  tree.kind = .named kind ∧ ∃ text, tree.value = .text text

/-- The token is of the kind and holds tokens of this form, at least one. -/
def HoldsEach (kind : String) (form : Tree → Prop) (tree : Tree) : Prop :=
  tree.kind = .named kind
  ∧ ∃ items, tree.value = .tokens items ∧ items ≠ [] ∧ ∀ item ∈ items, form item

/-- There is nothing, or a single token of this form. -/
inductive AtMostOne (form : Tree → Prop) : List Tree → Prop where
  | absent : AtMostOne form []
  | present {tree : Tree} (known : form tree) : AtMostOne form [tree]

/-- The tokens are those that the action expects, in this order. Operands, tests, joins, columns,
tables and filters match the source; a sign was captured as the first group of its pattern.
-/
inductive Action.Fits (source : Source) : Action → List Tree → Prop where
  | column {table column : Tree} (tableName : HoldsText "table-name" table)
    (columnName : HoldsText "column-name" column)
    : Fits source .column [table, column]
  | test {left sign right : Tree} {operator : String} (leftMatches : MatchesOperand source left)
    (signKind : sign.kind = .named "regex") (captured : groupText? 1 sign = some operator)
    (known : operator ∈ comparisons) (rightMatches : MatchesOperand source right)
    : Fits source .test [left, sign, right]
  | filter {test : Tree} (testMatches : MatchesTest source test) : Fits source .filter [test]
  | join {table test : Tree} (tableName : HoldsText "table-name" table)
    (testMatches : MatchesTest source test)
    : Fits source .join [table, test]
  | tables {table : Tree} {rest : List Tree} (tableName : HoldsText "table-name" table)
    (joins : AtMostOne (HoldsEach "list" (MatchesJoin source)) rest)
    : Fits source .tables (table :: rest)
  | selection {columns : Tree} (columnsHeld : HoldsEach "list" (MatchesColumn source) columns)
    : Fits source .selection [columns]
  | query {selection tables : Tree} {rest : List Tree}
    (columnsHeld : HoldsEach "select" (MatchesColumn source) selection)
    (tablesMatch : MatchesTables source tables)
    (filter : AtMostOne (MatchesFilter source) rest)
    : Fits source .query (selection :: tables :: rest)

section Fits

variable {source : Source} {action : Action} {items : List Tree} {token : Tree}

/-- A token is assembled if something can be made from what it holds. -/
theorem exists_assemble {kind : String} {make : List Tree → Option (Value Node)}
    (hvalue : token.value = .tokens items) (hmake : ∃ value, make items = some value)
    : ∃ changed, assemble kind make token = .ok changed := by
  obtain ⟨value, hmake⟩ := hmake
  refine ⟨token.relabel (.named kind) value, ?_⟩
  simp only [assemble, hvalue, Value.tokens?, Option.getD_some, hmake]

/-- An action accepts tokens that it expects, by cases on how they fit. -/
theorem Action.Fits.exists_perform (h : action.Fits source items)
    (hvalue : token.value = .tokens items)
    : ∃ changed, action.perform token = .ok changed := by
  cases h with
  | column tableName columnName =>
      obtain ⟨-, table, htable⟩ := tableName
      obtain ⟨-, column, hcolumn⟩ := columnName
      exact exists_assemble hvalue ⟨_, by simp [column?, htable, hcolumn, Value.text?]; rfl⟩
  | test _ _ captured _ _ =>
      exact exists_assemble hvalue ⟨_, by simp [test?, captured]; rfl⟩
  | filter testMatches => exact exists_assemble hvalue ⟨_, rfl⟩
  | join tableName _ =>
      obtain ⟨-, table, htable⟩ := tableName
      exact exists_assemble hvalue ⟨_, by simp [join?, htable, Value.text?]; rfl⟩
  | tables tableName _ =>
      obtain ⟨-, table, htable⟩ := tableName
      exact exists_assemble hvalue ⟨_, by simp [tables?, htable, Value.text?]; rfl⟩
  | selection columnsHeld =>
      obtain ⟨-, columns, hcolumns, -⟩ := columnsHeld
      exact exists_assemble hvalue ⟨_, by simp [selection?, hcolumns, Value.tokens?]; rfl⟩
  | query columnsHeld _ _ =>
      obtain ⟨-, columns, hcolumns, -⟩ := columnsHeld
      exact exists_assemble hvalue ⟨_, by simp [query?, hcolumns, Value.tokens?]; rfl⟩

end Fits

-----------------------------------------------------------------------------------------
-- Tokens that are read
-----------------------------------------------------------------------------------------

section Readings

variable {source : Source} {index : Nat} {tree : Tree}

theorem name_holdsText {kind : String} (hreads : (parser (name kind)).Reads source index tree)
    : tree.isIgnored = false ∧ HoldsText kind tree := by
  obtain ⟨token, -, rfl⟩ := name_reads_iff.mp hreads
  exact ⟨rfl, rfl, _, rfl⟩

/-- The token of a list holds the tokens of its items, each of which the item has read. -/
theorem list_holdsEach {item : Parser Node} {delimiter ahead : Option (Parser Node)}
    {form : Tree → Prop}
    (hitem : ∀ {index tree}, item.Reads source index tree → form tree)
    (hreads : (Parser.list item delimiter ahead).Reads source index tree)
    : tree.isIgnored = false ∧ HoldsEach "list" form tree := by
  obtain ⟨tokens, stop, hrounds, hne, rfl⟩ := Parser.exists_rounds_of_list_reads hreads
  refine ⟨rfl, rfl, Parser.kept tokens, rfl, hne, fun token hmem => ?_⟩
  obtain ⟨start, hstart⟩ := hrounds.exists_reads_of_mem token (List.mem_of_mem_filter hmem)
  exact hitem hstart

theorem columns_holdsEach (hreads : columns.Reads source index tree)
    : tree.isIgnored = false ∧ HoldsEach "list" (MatchesColumn source) tree :=
  list_holdsEach (fun hcolumn => (column_sound hcolumn).2) hreads

/-- What is optional is dropped where it is absent, and retained where it is read. -/
theorem optional_atMostOne {inner : Parser Node} {form : Tree → Prop}
    (hinner
      : ∀ {index tree}, inner.Reads source index tree → tree.isIgnored = false ∧ form tree)
    (hreads : (Parser.optional inner).Reads source index tree)
    : AtMostOne form (Parser.kept [tree]) := by
  rcases Parser.optional_reads_iff.mp hreads with hpresent | ⟨-, rfl⟩
  · obtain ⟨hkept, hform⟩ := hinner hpresent
    rw [Parser.kept_cons_of_not_ignored hkept]
    exact .present hform
  · exact .absent

theorem joins_atMostOne (hreads : (Parser.optional joins).Reads source index tree)
    : AtMostOne (HoldsEach "list" (MatchesJoin source)) (Parser.kept [tree]) :=
  optional_atMostOne (list_holdsEach fun hjoin => (join_sound hjoin).2) hreads

theorem filter_atMostOne (hreads : (Parser.optional (parser filter)).Reads source index tree)
    : AtMostOne (MatchesFilter source) (Parser.kept [tree]) := by
  refine optional_atMostOne (fun hfilter => ?_) hreads
  have hmatches := (filter_sound hfilter).2
  exact ⟨hmatches.isIgnored_eq_false, hmatches⟩

end Readings

-----------------------------------------------------------------------------------------
-- Sequences
-----------------------------------------------------------------------------------------

section Sequences

variable {source : Source}

/-- The sequence of a column retains both names, as the dot is ignored. -/
theorem column_retains
    : (Parser.sequence
        [parser (name "table-name"), Parser.ignored dotPattern.parser,
          parser (name "column-name")]
        none).Retains source (Action.column.Fits source) := by
  intro index token hreads
  obtain ⟨table, _, column, htable, hdot, hcolumn, -, rfl⟩ :=
    Parser.sequence_triple_reads_iff.mp hreads
  obtain ⟨dot, -, rfl⟩ := Parser.ignored_reads_iff.mp hdot
  obtain ⟨htableKept, htableText⟩ := name_holdsText htable
  obtain ⟨hcolumnKept, hcolumnText⟩ := name_holdsText hcolumn
  have hkept : Parser.kept [table, dot.ignore, column] = [table, column] := by
    simp [Parser.kept_cons_of_not_ignored htableKept,
      Parser.kept_cons_of_not_ignored hcolumnKept]
  exact ⟨_, congrArg _ hkept, .column htableText hcolumnText⟩

/-- The sequence of a test retains both operands and the sign between them. -/
theorem test_retains
    : (Parser.sequence [parser operand, comparisonPattern.parser, parser operand] none).Retains
        source (Action.test.Fits source) := by
  intro index token hreads
  obtain ⟨left, sign, right, hleft, hsign, hright, -, rfl⟩ :=
    Parser.sequence_triple_reads_iff.mp hreads
  have hleftMatches := (operand_sound hleft).2
  have hrightMatches := (operand_sound hright).2
  obtain ⟨-, _, _, _, -, -, ⟨operator, hknown, rfl⟩, -, hgroup⟩ :=
    comparisonPattern_encloses.exists_of_reads hsign
  rw [String.ofList_toList] at hgroup
  have hkept : Parser.kept [left, sign, right] = [left, sign, right] :=
    Parser.kept_triple hleftMatches.isIgnored_eq_false (Pattern.isIgnored_of_reads hsign)
      hrightMatches.isIgnored_eq_false
  obtain ⟨_, _, -, -, rfl⟩ := Pattern.reads_iff.mp hsign
  exact ⟨_, congrArg _ hkept, .test hleftMatches rfl hgroup hknown hrightMatches⟩

/-- The sequence of a filter retains its test, as the keyword is ignored. -/
theorem filter_retains
    : (Parser.sequence [Parser.ignored wherePattern.parser, parser test] none).Retains source
        (Action.filter.Fits source) := by
  intro index token hreads
  obtain ⟨_, _, hrun, -, rfl⟩ := Parser.sequence_none_reads_iff.mp hreads
  simp only [Parser.consecutive_cons_iff, Parser.consecutive_nil_iff,
    Parser.ignored_reads_iff] at hrun
  obtain ⟨_, _, ⟨keyword, -, rfl⟩, ⟨test, _, htest, ⟨rfl, rfl⟩, rfl⟩, rfl⟩ := hrun
  have hmatches := (test_sound htest).2
  have hkept : Parser.kept [keyword.ignore, test] = [test] := by
    simp [Parser.kept_cons_of_not_ignored hmatches.isIgnored_eq_false]
  exact ⟨_, congrArg _ hkept, .filter hmatches⟩

/-- The sequence of a join retains its table and its test, as the keywords are ignored. -/
theorem join_retains
    : (Parser.sequence
        [Parser.ignored joinPattern.parser, parser (name "table-name"),
          Parser.ignored onPattern.parser, parser test]
        none).Retains source (Action.join.Fits source) := by
  intro index token hreads
  obtain ⟨_, _, hrun, -, rfl⟩ := Parser.sequence_none_reads_iff.mp hreads
  simp only [Parser.consecutive_cons_iff, Parser.consecutive_nil_iff,
    Parser.ignored_reads_iff] at hrun
  obtain ⟨_, _, ⟨opening, -, rfl⟩, ⟨table, _, htable, ⟨_, _, ⟨inner, -, rfl⟩,
    ⟨test, _, htest, ⟨rfl, rfl⟩, rfl⟩, rfl⟩, rfl⟩, rfl⟩ := hrun
  obtain ⟨htableKept, htableText⟩ := name_holdsText htable
  have hmatches := (test_sound htest).2
  have hkept
      : Parser.kept [opening.ignore, table, inner.ignore, test] = [table, test] := by
    simp [Parser.kept_cons_of_not_ignored htableKept,
      Parser.kept_cons_of_not_ignored hmatches.isIgnored_eq_false]
  exact ⟨_, congrArg _ hkept, .join htableText hmatches⟩

/-- The sequence of tables retains a name and perhaps a list of joins, as the keyword is
ignored.
-/
theorem tables_retains
    : (Parser.sequence
        [Parser.ignored fromPattern.parser, parser (name "table-name"), Parser.optional joins]
        none).Retains source (Action.tables.Fits source) := by
  intro index token hreads
  obtain ⟨_, table, list, hfrom, htable, hlist, -, rfl⟩ :=
    Parser.sequence_triple_reads_iff.mp hreads
  obtain ⟨keyword, -, rfl⟩ := Parser.ignored_reads_iff.mp hfrom
  obtain ⟨htableKept, htableText⟩ := name_holdsText htable
  have hkept : Parser.kept [keyword.ignore, table, list] = table :: Parser.kept [list] := by
    rw [Parser.kept_cons_ignore, Parser.kept_cons_of_not_ignored htableKept]
  exact ⟨_, congrArg _ hkept, .tables htableText (joins_atMostOne hlist)⟩

/-- The sequence of a selection retains the list of its columns, as the keyword is ignored. -/
theorem selection_retains
    : (Parser.sequence [Parser.ignored selectPattern.parser, columns] none).Retains source
        (Action.selection.Fits source) := by
  intro index token hreads
  obtain ⟨_, _, hrun, -, rfl⟩ := Parser.sequence_none_reads_iff.mp hreads
  simp only [Parser.consecutive_cons_iff, Parser.consecutive_nil_iff,
    Parser.ignored_reads_iff] at hrun
  obtain ⟨_, _, ⟨keyword, -, rfl⟩, ⟨list, _, hlist, ⟨rfl, rfl⟩, rfl⟩, rfl⟩ := hrun
  obtain ⟨hlistKept, hheld⟩ := columns_holdsEach hlist
  have hkept : Parser.kept [keyword.ignore, list] = [list] := by
    simp [Parser.kept_cons_of_not_ignored hlistKept]
  exact ⟨_, congrArg _ hkept, .selection hheld⟩

/-- A selection holds the columns of its list, also where it ends with the source. -/
theorem selection_holdsEach {index : Nat} {tree : Tree}
    (hreads : (parser selection).Reads source index tree)
    : tree.isIgnored = false ∧ HoldsEach "select" (MatchesColumn source) tree := by
  rw [parser_selection, assembled, Parser.refine_reads_iff] at hreads
  obtain ⟨inner, hinner, hmake⟩ := hreads
  obtain ⟨items, hvalue, hfits⟩ := selection_retains _ _ hinner
  cases hfits with
  | selection columnsHeld =>
      obtain ⟨-, trees, htrees, hheld⟩ := columnsHeld
      simp only [assemble, hvalue, Value.tokens?, Option.getD_some, selection?, htrees,
        Option.map_some, Except.ok.injEq] at hmake
      subst hmake
      exact ⟨rfl, rfl, trees, rfl, hheld⟩

/-- The sequence of a query retains a selection, tables and perhaps a filter, as white space is
ignored.
-/
theorem query_retains
    : (Parser.sequence
        [parser selection, Parser.ignored gapPattern.parser, parser tables,
          Parser.ignored (Parser.optional gapPattern.parser), Parser.optional (parser filter)]
        none).Retains source (Action.query.Fits source) := by
  intro index token hreads
  obtain ⟨_, _, hrun, -, rfl⟩ := Parser.sequence_none_reads_iff.mp hreads
  simp only [Parser.consecutive_cons_iff, Parser.consecutive_nil_iff,
    Parser.ignored_reads_iff] at hrun
  obtain ⟨selected, _, hselected, ⟨_, _, ⟨gap, -, rfl⟩, ⟨tablesTree, _, htables, ⟨_, _,
    ⟨blank, -, rfl⟩, ⟨filterTree, _, hfilter, ⟨rfl, rfl⟩, rfl⟩, rfl⟩, rfl⟩, rfl⟩, rfl⟩ := hrun
  obtain ⟨hselectedKept, hheld⟩ := selection_holdsEach hselected
  have htablesMatch := (tables_sound htables).2
  have hkept
      : Parser.kept [selected, gap.ignore, tablesTree, blank.ignore, filterTree]
        = selected :: tablesTree :: Parser.kept [filterTree] := by
    rw [Parser.kept_cons_of_not_ignored hselectedKept, Parser.kept_cons_ignore,
      Parser.kept_cons_of_not_ignored htablesMatch.isIgnored_eq_false, Parser.kept_cons_ignore]
  exact ⟨_, congrArg _ hkept, .query hheld htablesMatch (filter_atMostOne hfilter)⟩

end Sequences

-----------------------------------------------------------------------------------------
-- Rules
-----------------------------------------------------------------------------------------

/-- The grammars of the rules of queries. -/
inductive IsRule : QueryGrammar → Prop where
  | number : IsRule number
  | string : IsRule string
  | name (kind : String) : IsRule (name kind)
  | column : IsRule column
  | operand : IsRule operand
  | test : IsRule test
  | filter : IsRule filter
  | join : IsRule join
  | tables : IsRule tables
  | selection : IsRule selection
  | query : IsRule query

section Rules

variable {source : Source}

theorem parser_sequence (bodies : List QueryGrammar)
    : parser (.sequence bodies none) = Parser.sequence (bodies.map parser) none := by
  have hparser : parser = Grammar.parser Action.perform Empty.elim := funext parser_eq
  rw [hparser, Grammar.parser, Grammar.parsers_eq_map]
  rfl

/-- The sequence of a rule retains what the action of the rule expects, by cases on the rule. -/
theorem rule_retains {grammar : QueryGrammar} {action : Action} {bodies : List QueryGrammar}
    {ahead : Option QueryGrammar} (hrule : IsRule grammar)
    (hgrammar : grammar = .act action (.sequence bodies ahead))
    : (parser (.sequence bodies ahead)).Retains source (action.Fits source) := by
  cases hrule with
  | number | string | name | operand => cases hgrammar
  | column =>
      cases hgrammar
      have hcolumn := @column_retains source
      rwa [parser_sequence]
  | test =>
      cases hgrammar
      have htest := @test_retains source
      rwa [parser_sequence]
  | filter =>
      cases hgrammar
      have hfilter := @filter_retains source
      rwa [parser_sequence]
  | join =>
      cases hgrammar
      have hjoin := @join_retains source
      rwa [parser_sequence]
  | tables =>
      cases hgrammar
      have htables := @tables_retains source
      rwa [parser_sequence]
  | selection =>
      cases hgrammar
      have hselection := @selection_retains source
      rwa [parser_sequence]
  | query =>
      cases hgrammar
      have hquery := @query_retains source
      rwa [parser_sequence]

/-- A number that cannot be read is no malformed token, for it has a message of its own. -/
theorem neverMalformed_number : (parser number).NeverMalformed source := by
  rw [parser_number]
  refine (Parser.neverMalformed_pattern _).refine fun {index token error} _ herror => ?_
  rw [Action.perform] at herror
  split at herror
  case h_1 => contradiction
  case h_2 =>
    obtain rfl := Except.error.inj herror
    exact ParseError.noneMalformed_invalidNumber _ _

theorem neverMalformed_string : (parser string).NeverMalformed source := by
  rw [parser_string]
  exact (Parser.neverMalformed_pattern _).refine fun _ herror => by contradiction

theorem neverMalformed_name (kind : String) : (parser (name kind)).NeverMalformed source := by
  rw [parser_name]
  exact (Parser.neverMalformed_pattern _).refine fun _ herror => by contradiction

/-- What is assembled from tokens that fit the action never fails for them, so it fails where
its parts do.
-/
theorem neverMalformed_assembled {kind : String} {make : List Tree → Option (Value Node)}
    {parsers : List (Parser Node)} {action : Action}
    (hperform : action.perform = assemble kind make)
    (hretains : (Parser.sequence parsers none).Retains source (action.Fits source))
    (hparsers : ∀ parser ∈ parsers, parser.NeverMalformed source)
    : (assembled kind make parsers).NeverMalformed source := by
  rw [assembled, ← hperform]
  exact (Parser.neverMalformed_sequence none hparsers).refine_of_retains hretains
    fun _ _ hvalue hfits => hfits.exists_perform hvalue

theorem neverMalformed_ignored (pattern : Pattern)
    : (Parser.ignored pattern.parser : Parser Node).NeverMalformed source :=
  (Parser.neverMalformed_pattern pattern).ignored

/-- A column fails where its parts do, since what it retains is accepted. -/
theorem neverMalformed_column : (parser column).NeverMalformed source := by
  rw [parser_column]
  refine neverMalformed_assembled rfl column_retains ?_
  simp [neverMalformed_name, neverMalformed_ignored]

theorem neverMalformed_operand : (parser operand).NeverMalformed source := by
  rw [parser_operand]
  refine Parser.neverMalformed_choice ?_
  simp [neverMalformed_column, neverMalformed_number, neverMalformed_string]

/-- A test fails where its parts do, since what it retains is accepted. -/
theorem neverMalformed_test : (parser test).NeverMalformed source := by
  rw [parser_test]
  refine neverMalformed_assembled rfl test_retains ?_
  simp [neverMalformed_operand, Parser.neverMalformed_pattern]

/-- A filter fails where its parts do, since what it retains is accepted. -/
theorem neverMalformed_filter : (parser filter).NeverMalformed source := by
  rw [parser_filter]
  refine neverMalformed_assembled rfl filter_retains ?_
  simp [neverMalformed_ignored, neverMalformed_test]

/-- A join fails where its parts do, since what it retains is accepted. -/
theorem neverMalformed_join : (parser join).NeverMalformed source := by
  rw [parser_join]
  refine neverMalformed_assembled rfl join_retains ?_
  simp [neverMalformed_ignored, neverMalformed_name, neverMalformed_test]

/-- Tables fail where their parts do, since what they retain is accepted. -/
theorem neverMalformed_tables : (parser tables).NeverMalformed source := by
  rw [parser_tables]
  refine neverMalformed_assembled rfl tables_retains ?_
  simp [neverMalformed_ignored, neverMalformed_name, Parser.neverMalformed_optional]

/-- A selection fails where its parts do, since what it retains is accepted. -/
theorem neverMalformed_selection : (parser selection).NeverMalformed source := by
  have hcolumns : columns.NeverMalformed source :=
    Parser.neverMalformed_list _ _ neverMalformed_column
  rw [parser_selection]
  refine neverMalformed_assembled rfl selection_retains ?_
  simp [neverMalformed_ignored, hcolumns]

/-- A query fails where its parts do, since what it retains is accepted. -/
theorem neverMalformed_query : (parser query).NeverMalformed source := by
  have hblank
      : (Parser.ignored (Parser.optional gapPattern.parser) : Parser Node).NeverMalformed
          source :=
    (Parser.neverMalformed_optional _).ignored
  rw [parser_query]
  refine neverMalformed_assembled rfl query_retains ?_
  simp [neverMalformed_selection, neverMalformed_ignored, neverMalformed_tables, hblank,
    Parser.neverMalformed_optional]

/-- No rule fails with an error about a malformed token, by cases on the rule. -/
theorem rule_neverMalformed {grammar : QueryGrammar} (hrule : IsRule grammar)
    : (parser grammar).NeverMalformed source := by
  cases hrule with
  | number => exact neverMalformed_number
  | string => exact neverMalformed_string
  | name kind => exact neverMalformed_name kind
  | column => exact neverMalformed_column
  | operand => exact neverMalformed_operand
  | test => exact neverMalformed_test
  | filter => exact neverMalformed_filter
  | join => exact neverMalformed_join
  | tables => exact neverMalformed_tables
  | selection => exact neverMalformed_selection
  | query => exact neverMalformed_query

end Rules

end TokenGrammar.Query

-----------------------------------------------------------------------------------------
-- Both languages
-----------------------------------------------------------------------------------------

namespace TokenGrammar

/-- No rule of either language, at any offset of any source, fails with an error about a malformed
token, nor with one among its causes: whenever the sequence that an action takes apart is read, it
has retained just the tokens that the action expects.
-/
theorem malformed_unreachable (source : Source) (index : Nat)
    : (∀ rule error,
        (Arithmetic.Rule.parser rule source index).outcome = .failed error → error.NoneMalformed)
      ∧ (∀ rule action bodies ahead depth token,
          Arithmetic.Rule.grammar rule = .act action (.sequence bodies ahead)
          → (Arithmetic.language.parserWithin depth (.sequence bodies ahead) source index).outcome
            = .matched token
          → ∃ items, token.value = .tokens items ∧ action.Fits source items)
      ∧ (∀ grammar error,
          Query.IsRule grammar
          → (Query.parser grammar source index).outcome = .failed error
          → error.NoneMalformed)
      ∧ ∀ grammar action bodies ahead token,
          Query.IsRule grammar
          → grammar = .act action (.sequence bodies ahead)
          → (Query.parser (.sequence bodies ahead) source index).outcome = .matched token
          → ∃ items, token.value = .tokens items ∧ action.Fits source items := by
  refine ⟨?_, ?_, ?_, ?_⟩
  · intro rule error hfails
    exact Arithmetic.rule_neverMalformed _ rule index error hfails
  · intro rule action bodies ahead depth token hrule hreads
    exact Arithmetic.rule_retains hrule depth index token hreads
  · intro grammar error hrule hfails
    exact Query.rule_neverMalformed hrule index error hfails
  · intro grammar action bodies ahead token hrule hgrammar hreads
    exact Query.rule_retains hrule hgrammar index token hreads

end TokenGrammar
