import TokenGrammar.Proofs.Query.Clauses
import TokenGrammar.Proofs.Query.Soundness

/-! Columns and joins are read as lists, by induction on the columns or joins that follow. Joins end
in front of a filter, or else with the source, of which they take white space at its end for a
delimiter.
-/

namespace TokenGrammar.Query

open Arithmetic (Blank IsBlank IsTrimmed)

variable {source : Source} {index : Nat} {rest : List Char}

-----------------------------------------------------------------------------------------
-- Columns
-----------------------------------------------------------------------------------------

/-- There is no comma in front of a keyword, which is visible first behind the white space. -/
theorem comma_rejects (inner : SpacedWord "FROM")
    (hrest : source.rest? index = some (inner.render ++ rest))
    : Rejects source commaPattern.parser index := by
  refine rejects_of_refuses (commaPattern_refuses ?_) hrest
  simp only [SpacedWord.render, List.append_assoc]
  obtain ⟨first, hvisible, halpha, -⟩ :=
    inner.spelling.exists_visible (by decide) rfl inner.before.isGap.2
  intro char hchar
  obtain rfl := Option.some.inj (hvisible.symm.trans hchar)
  rintro rfl
  contradiction

/-- Columns are read up to the last one, behind which there is no comma, by induction on the
columns that follow.
-/
theorem columns_yield (others : List NextColumn) (column : ColumnName)
    (inner : SpacedWord "FROM")
    (hrest
      : source.rest? index
        = some (column.render ++ (others.flatMap NextColumn.render ++ (inner.render ++ rest))))
    : YieldsItems source (parser Query.column) commaPattern none index (inner.render ++ rest)
        (column.tree :: others.map (·.column.tree)) := by
  have hinside : index < source.size :=
    source.lt_size_of_rest? hrest (by simp [ColumnName.render])
  induction others generalizing column index with
  | nil =>
      have hends : Ended (inner.render ++ rest) := by
        rw [SpacedWord.render, List.append_assoc]
        exact ended_gap_append inner.before.isGap _
      exact .undelimited hinside (column_yields column hends hrest)
        (fun _ => Parser.misses_none) (comma_rejects inner)
  | cons next others ih =>
      simp only [List.flatMap_cons, NextColumn.render, List.append_assoc,
        List.cons_append] at hrest
      have hends
          : Ended (next.before.chars
              ++ ',' :: (next.after.chars
                ++ (next.column.render
                  ++ (others.flatMap NextColumn.render ++ (inner.render ++ rest))))) :=
        ended_append next.before.isBlank (ended_cons_mark (by decide) _)
      have htakes
          : commaPattern.matcher.Takes (next.before.chars ++ ',' :: next.after.chars)
              (next.column.render
                ++ (others.flatMap NextColumn.render ++ (inner.render ++ rest)))
              [] :=
        commaPattern_takes next.before.isBlank next.after.isBlank next.column.isTrimmed
      refine .next hinside (column_yields column hends hrest) (fun _ => Parser.misses_none)
        (fun h => consumes_of_takes htakes (by simp) (by simpa using h)) fun h => ?_
      exact ih next.column h (source.lt_size_of_rest? h (by simp [ColumnName.render]))

-----------------------------------------------------------------------------------------
-- Ends of joins
-----------------------------------------------------------------------------------------

/-- What the tables of a query leave. The joins take white space at the end of the source for a
delimiter of theirs.
-/
def leftByTables : List JoinClause → Option FilterClause → Blank → List Char
  | _ :: _, none, _ => []
  | _, filter, trailing => renderEnd filter trailing

/-- The first join is the white space in front of it and its body, which goes on with the other
joins.
-/
theorem renderJoins_cons_append (join : JoinClause) (joins : List JoinClause)
    : renderJoins (join :: joins) ++ rest
      = join.opening.before.chars ++ (join.body ++ (renderJoins joins ++ rest)) := by
  rw [renderJoins, List.flatMap_cons, List.append_assoc, join.render_append]
  rfl

/-- A filter is the white space in front of it and its body, which goes on with white space. -/
theorem renderEnd_some (filter : FilterClause) (trailing : Blank)
    : renderEnd (some filter) trailing
      = filter.opening.before.chars ++ (filter.body ++ trailing.chars) :=
  filter.render_append

/-- What ends a query is an end of operands, for it is white space or starts with some. -/
theorem ended_end (filter : Option FilterClause) (trailing : Blank)
    : Ended (renderEnd filter trailing) := by
  cases filter with
  | none =>
      have hends : Ended (trailing.chars ++ []) := ended_append trailing.isBlank ended_nil
      rwa [List.append_nil] at hends
  | some filter =>
      rw [renderEnd_some]
      exact ended_gap_append filter.opening.before.isGap _

/-- Joins are an end of operands, for they start with white space. -/
theorem ended_joins (joins : List JoinClause) (filter : Option FilterClause) (trailing : Blank)
    : Ended (renderJoins joins ++ renderEnd filter trailing) := by
  cases joins with
  | nil => exact ended_end filter trailing
  | cons join joins =>
      rw [renderJoins_cons_append]
      exact ended_gap_append join.opening.before.isGap _

/-- What ends the joins of a query. -/
abbrev filterAhead : Option (Parser Node) :=
  some whereAheadPattern.parser

/-- A join looks like no filter, because the first letter of its keyword is another one. -/
theorem JoinClause.misses (join : JoinClause) {gap : List Char} (hgap : IsBlank gap)
    (hrest : source.rest? index = some (gap ++ (join.body ++ rest)))
    : Parser.Misses filterAhead source index := by
  have hlacks : Lacks 'W' (gap ++ (join.body ++ rest)) := by
    rw [JoinClause.body, List.append_assoc]
    exact join.opening.spelling.lacks (by decide) rfl (by decide) (by decide) (by decide) hgap
  exact (rejects_of_refuses (whereAheadPattern_refuses hlacks) hrest).misses

/-- White space looks like no filter, because no letter follows it. -/
theorem blank_misses (hblank : IsBlank rest) (hrest : source.rest? index = some rest)
    : Parser.Misses filterAhead source index :=
  (rejects_of_refuses (whereAheadPattern_refuses (lacks_of_isBlank hblank)) hrest).misses

theorem FilterClause.finds (filter : FilterClause)
    (hrest : source.rest? index = some (filter.render ++ rest))
    : Parser.Finds filterAhead source index := by
  rw [filter.render_append, FilterClause.body, List.append_assoc, List.append_assoc,
    ← List.append_assoc] at hrest
  have htakes := whereAheadPattern_takes filter.opening.spelling filter.opening.before.isGap.2
    (ended_gap_append filter.opening.after.isGap (filter.test.render ++ rest))
  exact ⟨_, rfl, _, Pattern.reads_of_takes htakes hrest⟩

-----------------------------------------------------------------------------------------
-- Joins
-----------------------------------------------------------------------------------------

theorem JoinClause.body_ne_nil (join : JoinClause) : join.body ≠ [] := by
  simp [JoinClause.body, Name.render]

/-- The last join ends in front of a filter, or white space up to the end of the source follows
it. By cases on whether there is a filter.
-/
theorem last_join_yields (join : JoinClause) {before : List Char} (hbefore : IsBlank before)
    (filter : Option FilterClause) (trailing : Blank)
    (hrest : source.rest? index = some (before ++ (join.body ++ renderEnd filter trailing)))
    : YieldsItems source (parser Query.join) gapPattern filterAhead index
        (leftByTables [join] filter trailing) [join.tree] := by
  have hinside : index < source.size :=
    source.lt_size_of_rest? hrest (by simp [join.body_ne_nil])
  have hjoin := join_yields join hbefore (ended_end filter trailing) hrest
  cases filter with
  | some filter => exact .found hinside hjoin fun h => filter.finds h
  | none =>
      have hmisses {offset : Nat} (h : source.rest? offset = some (renderEnd none trailing))
          : Parser.Misses filterAhead source offset :=
        blank_misses trailing.isBlank h
      by_cases htrailing : trailing.chars = []
      · have hend : renderEnd none trailing = [] := htrailing
        rw [hend] at hjoin hmisses
        exact .undelimited hinside hjoin hmisses
          (rejects_of_refuses (gapPattern_refuses Arithmetic.isTrimmed_nil))
      · have htakes : gapPattern.matcher.Takes trailing.chars [] [] :=
          gapPattern_takes ⟨htrailing, trailing.isBlank⟩ Arithmetic.isTrimmed_nil
        refine .next hinside hjoin hmisses (fun h => ?_) .exhausted
        exact consumes_of_takes htakes htrailing (by simpa [renderEnd] using h)

/-- Joins are read up to the last one, by induction on those that follow. White space in front
of a join is taken for the delimiter behind the join before.
-/
theorem joins_yield (others : List JoinClause) (join : JoinClause) {before : List Char}
    (hbefore : IsBlank before) (filter : Option FilterClause) (trailing : Blank)
    (hrest
      : source.rest? index
        = some (before
          ++ (join.body ++ (renderJoins others ++ renderEnd filter trailing))))
    : YieldsItems source (parser Query.join) gapPattern filterAhead index
        (leftByTables (join :: others) filter trailing)
        ((join :: others).map JoinClause.tree) := by
  induction others generalizing join before index with
  | nil => exact last_join_yields join hbefore filter trailing hrest
  | cons next others ih =>
      have hinside : index < source.size :=
        source.lt_size_of_rest? hrest (by simp [join.body_ne_nil])
      have hjoin := join_yields join hbefore (ended_joins (next :: others) filter trailing) hrest
      have hleft
          : leftByTables (join :: next :: others) filter trailing
            = leftByTables (next :: others) filter trailing := by
        cases filter <;> rfl
      have htrimmed
          : IsTrimmed (next.body ++ (renderJoins others ++ renderEnd filter trailing)) := by
        rw [JoinClause.body, List.append_assoc]
        exact next.opening.spelling.isTrimmed (by decide)
      have htakes := gapPattern_takes next.opening.before.isGap htrimmed
      rw [renderJoins_cons_append] at hjoin
      rw [hleft]
      refine .next hinside hjoin (next.misses next.opening.before.isGap.2)
        (consumes_of_takes htakes next.opening.before.isGap.1) fun h => ?_
      exact ih next Arithmetic.isBlank_nil h

end TokenGrammar.Query
