import TokenGrammar.Proofs.Query.Items

/-! Every abstract query, with any case of its keywords and any white space between its parts, is
read as the tree that it stands for.
-/

namespace TokenGrammar.Query

open Arithmetic (Blank IsBlank IsTrimmed)

variable {source : Source} {index : Nat} {rest : List Char}

/-- Joins are dropped if there are none in the text, because neither a filter nor white space
has the first letter of a join.
-/
theorem no_joins_rejects (filter : Option FilterClause) (trailing : Blank)
    (hrest : source.rest? index = some (renderEnd filter trailing))
    : Rejects source joins index := by
  have hlacks : Lacks 'J' (renderEnd filter trailing) := by
    cases filter with
    | none => exact lacks_of_isBlank trailing.isBlank
    | some filter =>
        rw [renderEnd_some, FilterClause.body, List.append_assoc]
        exact filter.opening.spelling.lacks (by decide) rfl (by decide) (by decide) (by decide)
          filter.opening.before.isGap.2
  have hkeyword : Rejects source (Parser.ignored joinPattern.parser) index :=
    (rejects_of_refuses (joinPattern_refuses hlacks) hrest).ignored
  have hjoin : Rejects source (parser Query.join) index := by
    rw [parser_join]
    exact hkeyword.assembled
  exact Parser.exists_list_fails (Or.inr hjoin)

/-- The list of joins, if there are any. -/
def joinsTrees : List JoinClause → List Tree
  | [] => []
  | join :: joins => [⟨0, 0, .named "list", .tokens ((join :: joins).map JoinClause.tree)⟩]

/-- The joins of a query are read as a list, or dropped if there are none, by cases on whether
there are any.
-/
theorem optional_joins_yield (clauses : List JoinClause) (filter : Option FilterClause)
    (trailing : Blank)
    (hrest : source.rest? index = some (renderJoins clauses ++ renderEnd filter trailing))
    : Yields source (Parser.optional joins) index (leftByTables clauses filter trailing)
        (joinsTrees clauses) := by
  cases clauses with
  | nil =>
      have hleft : leftByTables [] filter trailing = renderEnd filter trailing := by
        cases filter <;> rfl
      rw [hleft]
      exact (no_joins_rejects filter trailing hrest).optional hrest
  | cons join others =>
      have hforward : (parser Query.join).Forward source := by
        intro offset token hreads
        exact Parser.le_stop_of_index_eq (join_sound hreads).1
      rw [renderJoins_cons_append] at hrest
      exact ((joins_yield others join join.opening.before.isGap.2 filter trailing hrest).list
        hforward (by simp)).optional

/-- The tables of a query are read as a name and the joins, behind a keyword. -/
theorem tables_yield (opening : SpacedWord "FROM") (table : Name) (joins : List JoinClause)
    (filter : Option FilterClause) (trailing : Blank)
    (hrest
      : source.rest? index
        = some (opening.spelling.chars
          ++ (opening.after.chars
            ++ (table.render ++ (renderJoins joins ++ renderEnd filter trailing)))))
    : Yields source (parser tables) index (leftByTables joins filter trailing)
        [tablesTree table joins] := by
  have hall
      : YieldsAll source
          [Parser.ignored fromPattern.parser, parser (Query.name "table-name"),
            Parser.optional Query.joins]
          index (leftByTables joins filter trailing)
          (table.tree "table-name" :: (joinsTrees joins ++ [])) := by
    refine .cons (keyword_yields (by decide) opening.spelling Arithmetic.isBlank_nil
      opening.after table.isTrimmed hrest) fun h => ?_
    have hends := ended_joins joins filter trailing
    refine .cons (name_yields "table-name" table hends.not_namePart h) fun h => ?_
    exact .cons (optional_joins_yield joins filter trailing h) .nil
  have hvalue
      : tables? (table.tree "table-name" :: (joinsTrees joins ++ []))
        = some (tablesTree table joins).value := by
    cases joins <;> rfl
  rw [parser_tables]
  exact hall.assembled tables?_ignoresPositions hvalue (by simp)

/-- The tree that the columns of a query stand for. -/
def Statement.selectionTree (statement : Statement) : Tree :=
  ⟨0, 0, .named "select",
    .tokens (statement.first.tree :: statement.others.map (·.column.tree))⟩

/-- The columns of a query are read as a list, behind a keyword, up to the white space in front
of the next one.
-/
theorem selection_yields (statement : Statement)
    (hrest
      : source.rest? index
        = some (statement.before.chars
          ++ (statement.opening.chars
            ++ (statement.after.chars
              ++ (statement.first.render
                ++ (statement.others.flatMap NextColumn.render
                  ++ (statement.inner.render ++ rest)))))))
    : Yields source (parser selection) index (statement.inner.render ++ rest)
        [statement.selectionTree] := by
  have hforward : (parser Query.column).Forward source := by
    intro offset token hreads
    exact Parser.le_stop_of_index_eq (column_sound hreads).1
  have hall
      : YieldsAll source [Parser.ignored selectPattern.parser, columns] index
          (statement.inner.render ++ rest)
          [⟨0, 0, .named "list",
            .tokens (statement.first.tree :: statement.others.map (·.column.tree))⟩] := by
    refine .cons (keyword_yields (by decide) statement.opening statement.before.isBlank
      statement.after statement.first.isTrimmed hrest) fun h => ?_
    exact .cons ((columns_yield statement.others statement.first statement.inner h).list
      hforward (by simp)) .nil
  rw [parser_selection]
  exact hall.assembled selection?_ignoresPositions rfl (by simp)

/-- White space is skipped, if there is any, by cases on whether there is. -/
theorem blank_yields {gap : List Char} (hgap : IsBlank gap) (htrimmed : IsTrimmed rest)
    (hrest : source.rest? index = some (gap ++ rest))
    : Yields source (Parser.ignored (Parser.optional gapPattern.parser)) index rest [] := by
  by_cases hnil : gap = []
  · subst hnil
    exact ((rejects_of_refuses (gapPattern_refuses htrimmed) hrest).optional hrest).ignored
  · exact (yields_of_takes (gapPattern_takes ⟨hnil, hgap⟩ htrimmed) hrest).optional.ignored

/-- What a query leaves: white space behind its filter. -/
def leftByQuery : Option FilterClause → Blank → List Char
  | none, _ => []
  | some _, trailing => trailing.chars

/-- White space behind the tables is skipped, and then the filter is read, if there is one, by
cases on whether there is.
-/
theorem ending_yields (joins : List JoinClause) (filter : Option FilterClause)
    (trailing : Blank)
    (hrest : source.rest? index = some (leftByTables joins filter trailing))
    : YieldsAll source
        [Parser.ignored (Parser.optional gapPattern.parser),
          Parser.optional (parser Query.filter)]
        index (leftByQuery filter trailing) (filter.map FilterClause.tree).toList := by
  cases filter with
  | none =>
      have hblank : IsBlank (leftByTables joins none trailing) := by
        cases joins with
        | nil => exact trailing.isBlank
        | cons => simp [leftByTables, IsBlank]
      have hfilter {offset : Nat} (h : source.rest? offset = some [])
          : Rejects source (parser Query.filter) offset := by
        have hrefuses : wherePattern.matcher.Refuses [] :=
          wherePattern_refuses (lacks_of_isBlank Arithmetic.isBlank_nil)
        rw [parser_filter]
        exact (rejects_of_refuses hrefuses h).ignored.assembled
      refine .cons
        (blank_yields hblank Arithmetic.isTrimmed_nil (by simpa using hrest)) fun h => ?_
      exact .cons ((hfilter h).optional h) .nil
  | some filter =>
      have hleft
          : leftByTables joins (some filter) trailing
            = filter.opening.before.chars ++ (filter.body ++ trailing.chars) := by
        rw [← renderEnd_some]
        cases joins <;> rfl
      have htrimmed : IsTrimmed (filter.body ++ trailing.chars) := by
        rw [FilterClause.body, List.append_assoc]
        exact filter.opening.spelling.isTrimmed (by decide)
      have hends : Ended trailing.chars := ended_end none trailing
      rw [hleft] at hrest
      refine .cons (blank_yields filter.opening.before.isGap.2 htrimmed hrest) fun h => ?_
      exact .cons (filter_yields filter hends h).optional .nil

/-- A query is read as its columns, its tables and its filter, one after the other with white
space between them.
-/
theorem query_yields (statement : Statement)
    (hrest : source.rest? index = some statement.render)
    : Yields source (parser query) index (leftByQuery statement.filter statement.trailing)
        [statement.tree] := by
  have htrimmed
      : IsTrimmed (statement.inner.spelling.chars
          ++ (statement.inner.after.chars
            ++ (statement.table.render
              ++ (renderJoins statement.joins
                ++ renderEnd statement.filter statement.trailing)))) :=
    statement.inner.spelling.isTrimmed (by decide)
  have hselection := selection_yields statement hrest
  simp only [SpacedWord.render, List.append_assoc] at hselection
  have hall
      : YieldsAll source
          [parser selection, Parser.ignored gapPattern.parser, parser tables,
            Parser.ignored (Parser.optional gapPattern.parser),
            Parser.optional (parser Query.filter)]
          index (leftByQuery statement.filter statement.trailing)
          (statement.selectionTree
            :: tablesTree statement.table statement.joins
            :: (statement.filter.map FilterClause.tree).toList) := by
    refine .cons hselection fun h => ?_
    have hgap := gapPattern_takes statement.inner.before.isGap htrimmed
    refine .cons (consumes_of_takes hgap statement.inner.before.isGap.1 h).ignored fun h => ?_
    refine .cons (tables_yield statement.inner statement.table statement.joins statement.filter
      statement.trailing h) fun h => ?_
    exact ending_yields statement.joins statement.filter statement.trailing h
  have hvalue
      : query?
          (statement.selectionTree
            :: tablesTree statement.table statement.joins
            :: (statement.filter.map FilterClause.tree).toList)
        = some statement.tree.value := by
    cases hfilter : statement.filter <;>
      simp [query?, Statement.selectionTree, Statement.tree, Value.tokens?, hfilter]
  rw [parser_query]
  exact hall.assembled query?_ignoresPositions hvalue (by simp)

/-- Every query, with any case of its keywords and any white space between its parts and around
it, is read as the tree that it stands for: its columns, tables, joins and filter in order.
Names may be spelled like keywords, and strings may hold any characters.
-/
theorem parse_statement (statement : Statement)
    : ∃ tree,
        (parse (.ofChars statement.render)).outcome = .matched tree
        ∧ unplaced tree = statement.tree := by
  generalize hsource : Source.ofChars statement.render = source
  have hrest : source.rest? 0 = some statement.render := by
    rw [source.rest?_eq_some_iff, ← hsource]
    exact ⟨[], rfl, rfl⟩
  obtain ⟨tree, hreads, -, hexpected, -, hleft⟩ := (query_yields statement hrest).exists_reads
  have hblank : IsBlank (leftByQuery statement.filter statement.trailing) := by
    cases statement.filter with
    | none => simp [leftByQuery, IsBlank]
    | some filter => exact statement.trailing.isBlank
  refine ⟨tree, ?_, hexpected⟩
  simp only [parse, Reply.outcome_bind_eq_matched_iff]
  refine ⟨tree, hreads, ?_⟩
  rw [if_pos ((source.isBlankFrom_iff_of_rest? hleft).mpr hblank)]
  rfl

end TokenGrammar.Query
