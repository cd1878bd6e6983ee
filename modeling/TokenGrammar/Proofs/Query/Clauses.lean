import TokenGrammar.Proofs.Query.Steps
import TokenGrammar.Proofs.Query.Strings

/-! Names, columns, operands, comparisons, filters and joins are read as the trees that they stand
for, if what follows cannot be a part of them.
-/

namespace TokenGrammar.Query

open Arithmetic (Blank IsBlank IsTrimmed Numeral)

variable {source : Source} {index : Nat} {rest : List Char}

-----------------------------------------------------------------------------------------
-- Names and columns
-----------------------------------------------------------------------------------------

/-- A name is read as itself, up to what is no part of it. -/
theorem name_yields (kind : String) (name : Name)
    (hends : ∀ char ∈ rest.head?, ¬ namePart.contains char)
    (hrest : source.rest? index = some (name.render ++ rest))
    : Yields source (parser (Query.name kind)) index rest [name.tree kind] := by
  rw [parser_name]
  refine yields_of_perform (namePattern_takes name hends) hrest rfl ?_
  rw [Action.perform, groupText?_zero_tokenOf, Option.getD_some]

/-- A column is read as its two names, of which the dot ends the first. -/
theorem column_yields (column : ColumnName) (hends : Ended rest)
    (hrest : source.rest? index = some (column.render ++ rest))
    : Yields source (parser Query.column) index rest [column.tree] := by
  rw [ColumnName.render, List.append_assoc, List.cons_append] at hrest
  have hdot
      : ∀ char ∈ ('.' :: (column.column.render ++ rest)).head?, ¬ namePart.contains char := by
    intro char hchar
    obtain rfl := Option.some.inj hchar
    decide
  have hall
      : YieldsAll source
          [parser (Query.name "table-name"), Parser.ignored dotPattern.parser,
            parser (Query.name "column-name")]
          index rest [column.table.tree "table-name", column.column.tree "column-name"] := by
    refine .cons (name_yields "table-name" column.table hdot hrest) fun h => ?_
    refine .cons (consumes_of_takes dotPattern_takes (by simp) h).ignored fun h => ?_
    exact .cons (name_yields "column-name" column.column hends.not_namePart h) .nil
  rw [parser_column]
  exact hall.assembled column?_ignoresPositions rfl (by simp)

theorem column_rejects (hrest : source.rest? index = some rest)
    (hhead : ∀ char ∈ rest.head?, ¬ nameStart.contains char)
    : Rejects source (parser column) index := by
  have hname : Rejects source (parser (name "table-name")) index := by
    rw [parser_name]
    exact (rejects_of_refuses (namePattern_refuses hhead) hrest).refine
  rw [parser_column]
  exact hname.assembled

-----------------------------------------------------------------------------------------
-- Operands and comparisons
-----------------------------------------------------------------------------------------

/-- A literal is read as its number, up to what separates it from the rest. -/
theorem number_yields (numeral : Numeral) (hends : Ended rest)
    (hrest : source.rest? index = some (numeral.render ++ rest))
    : Yields source (parser Query.number) index rest [(Operand.number numeral).tree] := by
  have hpart : ∀ char ∈ rest.head?, Arithmetic.Separates char := by
    intro char hchar
    exact (hends char hchar).1
  obtain ⟨spans, htakes⟩ := Arithmetic.numberPattern_takes numeral hpart
  have htakes' : numberPattern.matcher.Takes numeral.render rest spans := htakes
  rw [parser_number]
  refine yields_of_perform htakes' hrest rfl ?_
  simp only [Action.perform, groupText?_zero_tokenOf, Option.getD_some, numeral.read_render]

theorem number_rejects (hrest : source.rest? index = some rest)
    (hhead : ∀ char ∈ rest.head?, ¬ Regex.CharSet.digit.contains char)
    : Rejects source (parser number) index := by
  rw [parser_number]
  exact (rejects_of_refuses (numberPattern_refuses hhead) hrest).refine

/-- A string is read as its content, up to its closing quote, which no other quote follows. -/
theorem string_yields (content : List Char) (hends : Ended rest)
    (hrest : source.rest? index = some ((Operand.string content).render ++ rest))
    : Yields source (parser Query.string) index rest [(Operand.string content).tree] := by
  have hquote : ∀ char ∈ rest.head?, char ≠ '\'' := by
    intro char hchar
    exact (hends char hchar).2.2.2
  exact yields_of_reads (string_reads_quoted content hquote hrest) rfl (Nat.le_add_right ..)
    (source.rest?_add hrest)

/-- The first character of an operand tells of which sort it is: the rules for the other sorts
reject it.
-/
theorem operand_yields (operand : Operand) (hends : Ended rest)
    (hrest : source.rest? index = some (operand.render ++ rest))
    : Yields source (parser Query.operand) index rest [operand.tree] := by
  rw [parser_operand]
  cases operand with
  | column name => exact (column_yields name hends hrest).choice [] _ (by simp)
  | number numeral =>
      have hcolumn : Rejects source (parser Query.column) index := by
        obtain ⟨first, more, hrender, hfirst⟩ := exists_numeral_eq_cons numeral
        refine column_rejects hrest ?_
        simpa [Operand.render, hrender] using hfirst.1
      exact (number_yields numeral hends hrest).choice [_] _ (by simpa using hcolumn)
  | string content =>
      have hcolumn : Rejects source (parser Query.column) index := by
        refine column_rejects hrest ?_
        intro char hchar
        obtain rfl := Option.some.inj hchar
        decide
      have hnumber : Rejects source (parser Query.number) index := by
        refine number_rejects hrest ?_
        intro char hchar
        obtain rfl := Option.some.inj hchar
        decide
      exact (string_yields content hends hrest).choice [_, _] _ (by simp [hcolumn, hnumber])

/-- The sign in front of an operand is the same wherever it is read, since its pattern captures
it behind the white space in front.
-/
theorem exists_comparison_yields (comparison : Comparison) (before after : Blank)
    (right : Operand)
    : ∃ sign,
        groupText? 1 sign = some comparison.sign
        ∧ ∀ {offset},
            source.rest? offset
              = some (before.chars
                ++ (comparison.sign.toList ++ (after.chars ++ (right.render ++ rest))))
            → Yields source comparisonPattern.parser offset (right.render ++ rest) [sign] := by
  obtain ⟨first, more, hright, hfirst⟩ := right.exists_render_eq_cons
  have hstart
      : ∃ first more, right.render ++ rest = first :: more ∧ StartsOperand first :=
    ⟨first, more ++ rest, by rw [hright, List.cons_append], hfirst⟩
  have htakes := comparisonPattern_takes comparison before after hstart
  refine ⟨_, ?_, fun h => yields_of_takes htakes (by simpa using h)⟩
  rw [groupText?_unplaced, groupText?_one_tokenOf comparisonPattern_encloses.groupNames_length,
    String.ofList_toList]

/-- A comparison is read as its operands with the sign between them, one after the other. -/
theorem condition_yields (condition : Condition) (hends : Ended rest)
    (hrest : source.rest? index = some (condition.render ++ rest))
    : Yields source (parser test) index rest [condition.tree] := by
  rcases condition with ⟨left, before, comparison, after, right⟩
  simp only [Condition.render, List.append_assoc] at hrest
  obtain ⟨sign, hgroup, hsign⟩ := exists_comparison_yields comparison before after right
  have hleft
      : Ended (before.chars
          ++ (comparison.sign.toList ++ (after.chars ++ (right.render ++ rest)))) :=
    ended_append before.isBlank (ended_comparison comparison.mem_comparisons)
  have hall
      : YieldsAll source
          [parser Query.operand, comparisonPattern.parser, parser Query.operand]
          index rest [left.tree, sign, right.tree] := by
    refine .cons (operand_yields left hleft hrest) fun h => ?_
    refine .cons (hsign h) fun h => ?_
    exact .cons (operand_yields right hends h) .nil
  rw [parser_test]
  refine hall.assembled test?_ignoresPositions ?_ (by simp)
  rw [test?, hgroup]
  rfl

-----------------------------------------------------------------------------------------
-- Filters and joins
-----------------------------------------------------------------------------------------

/-- The characters of a filter behind the white space in front of it. -/
def FilterClause.body (filter : FilterClause) : List Char :=
  filter.opening.spelling.chars ++ (filter.opening.after.chars ++ filter.test.render)

/-- The characters of a join behind the white space in front of it. -/
def JoinClause.body (join : JoinClause) : List Char :=
  join.opening.spelling.chars
  ++ (join.opening.after.chars
    ++ (join.table.render ++ (join.inner.render ++ join.test.render)))

/-- A filter is the white space in front of it and its body, which goes on with what follows. -/
theorem FilterClause.render_append (filter : FilterClause)
    : filter.render ++ rest = filter.opening.before.chars ++ (filter.body ++ rest) := by
  simp [FilterClause.render, FilterClause.body, SpacedWord.render]

/-- A join is the white space in front of it and its body, which goes on with what follows. -/
theorem JoinClause.render_append (join : JoinClause)
    : join.render ++ rest = join.opening.before.chars ++ (join.body ++ rest) := by
  simp [JoinClause.render, JoinClause.body, SpacedWord.render]

/-- A keyword is skipped with all white space around it, since its pattern takes them together.
-/
theorem keyword_yields {word : String} (hword : word ∈ keywords) (spelling : Spelling word)
    {before : List Char} (hbefore : IsBlank before) (after : Gap) (htrimmed : IsTrimmed rest)
    (hrest : source.rest? index = some (before ++ (spelling.chars ++ (after.chars ++ rest))))
    : Yields source (Parser.ignored (keywordPattern word).parser) index rest [] := by
  have htakes := keywordPattern_takes hword spelling hbefore after.isGap htrimmed
  obtain ⟨first, others, hspelling, -⟩ := spelling.exists_cons hword
  exact (consumes_of_takes htakes (by simp [hspelling]) (by simpa using hrest)).ignored

/-- A filter is read as its test, behind its keyword. -/
theorem filter_yields (filter : FilterClause) (hends : Ended rest)
    (hrest : source.rest? index = some (filter.body ++ rest))
    : Yields source (parser Query.filter) index rest [filter.tree] := by
  simp only [FilterClause.body, List.append_assoc] at hrest
  have hall
      : YieldsAll source [Parser.ignored wherePattern.parser, parser test] index rest
          [filter.test.tree] := by
    refine .cons (keyword_yields (by decide) filter.opening.spelling Arithmetic.isBlank_nil
      filter.opening.after filter.test.isTrimmed hrest) fun h => ?_
    exact .cons (condition_yields filter.test hends h) .nil
  rw [parser_filter]
  exact hall.assembled filter?_ignoresPositions rfl (by simp)

/-- A join is read as its table and its test, behind a keyword each. White space in front of a
join has been taken before, apart from that in front of the first join.
-/
theorem join_yields (join : JoinClause) {before : List Char} (hbefore : IsBlank before)
    (hends : Ended rest) (hrest : source.rest? index = some (before ++ (join.body ++ rest)))
    : Yields source (parser Query.join) index rest [join.tree] := by
  simp only [JoinClause.body, SpacedWord.render, List.append_assoc] at hrest
  have hname
      : Ended (join.inner.before.chars
          ++ (join.inner.spelling.chars
            ++ (join.inner.after.chars ++ (join.test.render ++ rest)))) :=
    ended_gap_append join.inner.before.isGap _
  have honTakes
      : onPattern.matcher.Takes
          (join.inner.before.chars ++ (join.inner.spelling.chars ++ join.inner.after.chars))
          (join.test.render ++ rest) [] :=
    onPattern_takes join.inner.spelling join.inner.before.isGap join.inner.after.isGap
      join.test.isTrimmed
  have honText
      : join.inner.before.chars ++ (join.inner.spelling.chars ++ join.inner.after.chars) ≠ [] := by
    simp [join.inner.before.isGap.1]
  have hall
      : YieldsAll source
          [Parser.ignored joinPattern.parser, parser (Query.name "table-name"),
            Parser.ignored onPattern.parser, parser test]
          index rest [join.table.tree "table-name", join.test.tree] := by
    refine .cons (keyword_yields (by decide) join.opening.spelling hbefore
      join.opening.after join.table.isTrimmed hrest) fun h => ?_
    refine .cons (name_yields "table-name" join.table hname.not_namePart h) fun h => ?_
    refine .cons (consumes_of_takes honTakes honText (by simpa using h)).ignored fun h => ?_
    exact .cons (condition_yields join.test hends h) .nil
  rw [parser_join]
  exact hall.assembled join?_ignoresPositions rfl (by simp)

end TokenGrammar.Query
