import TokenGrammar.Proofs.Lists
import TokenGrammar.Proofs.Query.Matches
import TokenGrammar.Proofs.Query.Rules
import TokenGrammar.Proofs.Query.Strings

/-! Whatever the grammars of queries read matches the source that it covers. What is optional is
dropped where it fails, but then the rest of the source has to do without it.
-/

namespace TokenGrammar.Query

open Arithmetic (IsBlank Framed)

variable {source : Source} {index : Nat} {tree : Tree}

-----------------------------------------------------------------------------------------
-- Names and operands
-----------------------------------------------------------------------------------------

/-- A name covers its own text, which its pattern spells. -/
theorem name_sound {kind : String} (hreads : (parser (name kind)).Reads source index tree)
    : tree.index = index
      ∧ tree.isIgnored = false
      ∧ ∃ text,
          source.slice? index tree.stop = some text
          ∧ IsName text
          ∧ tree.value = .text (String.ofList text) := by
  obtain ⟨token, htoken, rfl⟩ := name_reads_iff.mp hreads
  obtain ⟨text, rest, spans, hrest, hname, rfl⟩ :=
    Pattern.exists_text_of_reads namePattern_spells htoken
  refine ⟨rfl, rfl, text, source.slice?_of_rest? hrest, hname, ?_⟩
  rw [groupText?_zero_tokenOf]
  rfl

/-- A column covers its two names and the dot between them, which meet one another. -/
theorem column_sound (hreads : (parser column).Reads source index tree)
    : tree.index = index ∧ MatchesColumn source tree := by
  rw [parser_column] at hreads
  obtain ⟨_, _, value, hrun, -, hmake, rfl⟩ := assembled_reads_iff.mp hreads
  obtain ⟨table, _, column, htable, hignored, hcolumn, rfl, rfl⟩ :=
    Parser.consecutive_triple_iff.mp hrun
  obtain ⟨dot, hdot, rfl⟩ := Parser.ignored_reads_iff.mp hignored
  obtain ⟨-, htableKept, tableText, htableSlice, htableName, htableValue⟩ := name_sound htable
  obtain ⟨-, hcolumnKept, columnText, hcolumnSlice, hcolumnName, hcolumnValue⟩ :=
    name_sound hcolumn
  obtain ⟨_, hdotSlice, rfl⟩ := Pattern.exists_slice_of_reads dotPattern_spells hdot
  have hkept : Parser.kept [table, dot.ignore, column] = [table, column] := by
    simp [Parser.kept_cons_of_not_ignored htableKept,
      Parser.kept_cons_of_not_ignored hcolumnKept]
  have hslice
      : source.slice? index column.stop = some (tableText ++ '.' :: columnText) := by
    simpa using source.slice?_append (source.slice?_append htableSlice hdotSlice) hcolumnSlice
  have hle := (source.slice?_eq_some_iff.mp hslice).1
  rw [hkept] at hmake
  simp only [column?, htableValue, hcolumnValue, Value.text?, Option.bind_eq_bind,
    Option.bind_some, Option.pure_def, Option.some.injEq] at hmake
  subst hmake
  refine ⟨rfl, .column ?_ htableName hcolumnName⟩
  rwa [Nat.add_sub_cancel' hle]

/-- A number covers the text of its literal, which is read as its value. -/
theorem number_sound (hreads : (parser number).Reads source index tree)
    : tree.index = index ∧ MatchesOperand source tree := by
  obtain ⟨token, value, htoken, hread, rfl⟩ := number_reads_iff.mp hreads
  obtain ⟨text, rest, spans, hrest, hnumeral, rfl⟩ :=
    Pattern.exists_text_of_reads numberPattern_spells htoken
  rw [groupText?_zero_tokenOf] at hread
  exact ⟨rfl, .number (source.slice?_of_rest? hrest) hnumeral hread⟩

theorem string_sound (hreads : (parser string).Reads source index tree)
    : tree.index = index ∧ MatchesOperand source tree := by
  obtain ⟨content, rfl, hslice⟩ := exists_quoted_of_reads hreads
  exact ⟨rfl, .string hslice⟩

/-- An operand is of one of the three sorts, by cases on which parser has read it. -/
theorem operand_sound (hreads : (parser operand).Reads source index tree)
    : tree.index = index ∧ MatchesOperand source tree := by
  rw [parser_operand] at hreads
  obtain ⟨other, hmem, hother⟩ := Parser.exists_mem_of_choice_reads hreads
  simp only [List.mem_cons, List.not_mem_nil, or_false] at hmem
  rcases hmem with rfl | rfl | rfl
  · obtain ⟨hindex, hmatches⟩ := column_sound hother
    exact ⟨hindex, .column hmatches⟩
  · exact number_sound hother
  · exact string_sound hother

-----------------------------------------------------------------------------------------
-- Tests, filters and joins
-----------------------------------------------------------------------------------------

theorem MatchesOperand.isIgnored_eq_false (h : MatchesOperand source tree)
    : tree.isIgnored = false := by
  cases h with
  | column column =>
      cases column with
      | column => rfl
  | number => rfl
  | string => rfl

/-- A test covers its operands and the sign between them, framed by white space, which meet one
another.
-/
theorem test_sound (hreads : (parser test).Reads source index tree)
    : tree.index = index ∧ MatchesTest source tree := by
  rw [parser_test] at hreads
  obtain ⟨_, _, value, hrun, -, hmake, rfl⟩ := assembled_reads_iff.mp hreads
  obtain ⟨left, sign, right, hleft, hsign, hright, rfl, rfl⟩ :=
    Parser.consecutive_triple_iff.mp hrun
  obtain ⟨hleftIndex, hleftMatches⟩ := operand_sound hleft
  obtain ⟨hrightIndex, hrightMatches⟩ := operand_sound hright
  obtain ⟨-, before, _, after, hslice, hbefore, ⟨operator, hoperator, rfl⟩, hafter, hgroup⟩ :=
    comparisonPattern_encloses.exists_of_reads hsign
  have hkept : Parser.kept [left, sign, right] = [left, sign, right] :=
    Parser.kept_triple hleftMatches.isIgnored_eq_false (Pattern.isIgnored_of_reads hsign)
      hrightMatches.isIgnored_eq_false
  rw [hkept] at hmake
  simp only [test?, hgroup, Option.bind_eq_bind, Option.bind_some, Option.pure_def,
    Option.some.injEq, String.ofList_toList] at hmake
  subst hmake
  have hle : index ≤ right.stop := by
    have hbetween := (source.slice?_eq_some_iff.mp hslice).1
    simp only [Token.stop] at *
    omega
  refine ⟨rfl, .test hleftIndex.symm (Nat.add_sub_cancel' hle) hleftMatches hrightMatches ?_
    hoperator hbefore hafter⟩
  rwa [hrightIndex]

theorem MatchesTest.isIgnored_eq_false (h : MatchesTest source tree)
    : tree.isIgnored = false := by
  cases h
  rfl

/-- A filter covers its keyword and its test, which meet. -/
theorem filter_sound (hreads : (parser filter).Reads source index tree)
    : tree.index = index ∧ MatchesFilter source tree := by
  rw [parser_filter] at hreads
  obtain ⟨_, _, value, hrun, -, hmake, rfl⟩ := assembled_reads_iff.mp hreads
  simp only [Parser.consecutive_cons_iff, Parser.consecutive_nil_iff,
    Parser.ignored_reads_iff] at hrun
  obtain ⟨_, _, ⟨keyword, hkeyword, rfl⟩, ⟨test, _, htest, ⟨rfl, rfl⟩, rfl⟩, rfl⟩ := hrun
  obtain ⟨opening, hslice, hopening⟩ :=
    Pattern.exists_slice_of_reads (keywordPattern_spells "WHERE") hkeyword
  obtain ⟨htestIndex, htestMatches⟩ := test_sound htest
  have hkept : Parser.kept [keyword.ignore, test] = [test] := by
    simp [Parser.kept_cons_of_not_ignored htestMatches.isIgnored_eq_false]
  rw [hkept] at hmake
  obtain rfl := Option.some.inj hmake
  have hle := ((HasSlice.trans ⟨_, hslice⟩ (htestIndex ▸ htestMatches.hasSlice)).le)
  refine ⟨rfl, .filter ?_ hopening (Nat.add_sub_cancel' hle) htestMatches⟩
  rw [htestIndex]
  exact hslice

/-- A join covers a keyword, a name, another keyword and its test, which meet one another. -/
theorem join_sound (hreads : (parser join).Reads source index tree)
    : tree.index = index ∧ MatchesJoin source tree := by
  rw [parser_join] at hreads
  obtain ⟨_, _, value, hrun, -, hmake, rfl⟩ := assembled_reads_iff.mp hreads
  simp only [Parser.consecutive_cons_iff, Parser.consecutive_nil_iff,
    Parser.ignored_reads_iff] at hrun
  obtain ⟨_, _, ⟨opening, hopening, rfl⟩, ⟨table, _, htable, ⟨_, _, ⟨inner, hinner, rfl⟩,
    ⟨test, _, htest, ⟨rfl, rfl⟩, rfl⟩, rfl⟩, rfl⟩, rfl⟩ := hrun
  obtain ⟨openingText, hopeningSlice, hopeningKeyword⟩ :=
    Pattern.exists_slice_of_reads (keywordPattern_spells "JOIN") hopening
  obtain ⟨-, htableKept, tableText, htableSlice, htableName, htableValue⟩ := name_sound htable
  obtain ⟨innerText, hinnerSlice, hinnerKeyword⟩ :=
    Pattern.exists_slice_of_reads onPattern_spells hinner
  obtain ⟨htestIndex, htestMatches⟩ := test_sound htest
  have hkept
      : Parser.kept [opening.ignore, table, inner.ignore, test] = [table, test] := by
    simp [Parser.kept_cons_of_not_ignored htableKept,
      Parser.kept_cons_of_not_ignored htestMatches.isIgnored_eq_false]
  rw [hkept] at hmake
  simp only [join?, htableValue, Value.text?, Option.bind_eq_bind, Option.bind_some,
    Option.pure_def, Option.some.injEq] at hmake
  subst hmake
  have hslice
      : source.slice? index test.index = some (openingText ++ (tableText ++ innerText)) := by
    rw [htestIndex]
    exact source.slice?_append hopeningSlice (source.slice?_append htableSlice hinnerSlice)
  have hle := (HasSlice.trans ⟨_, hslice⟩ htestMatches.hasSlice).le
  exact ⟨rfl, .join hslice hopeningKeyword htableName hinnerKeyword (Nat.add_sub_cancel' hle)
    htestMatches⟩

-----------------------------------------------------------------------------------------
-- Lists
-----------------------------------------------------------------------------------------

section Lists

variable {item : Parser Node} {delimiter : Pattern} {ahead : Option (Parser Node)}
  {matched : Tree → Prop} {separates : List Char → Prop} {trees : List Tree}
  {cursor stop : Nat}

/-- The items and delimiters of a list are sound: items are matched and never ignored, delimiters
are separators and never empty.
-/
structure SoundList (source : Source) (item : Parser Node) (delimiter : Pattern)
    (matched : Tree → Prop) (separates : List Char → Prop)
    : Prop where
  item
    : ∀ {index tree}, item.Reads source index tree → tree.index = index ∧ matched tree
  kept : ∀ {tree}, matched tree → tree.isIgnored = false
  hasSlice : ∀ tree, matched tree → HasSlice source tree.index tree.stop
  delimiter : delimiter.matcher.Spells separates
  nonempty : ∀ {text}, separates text → text ≠ []

/-- What a round passes is a separator between its item and where the next round starts, for the
delimiter is never empty.
-/
theorem SoundList.exists_separator {tree : Tree} {next : Nat}
    (h : SoundList source item delimiter matched separates)
    (round : Parser.Round item (some delimiter.parser) ahead source cursor tree next)
    : ∃ text,
        source.slice? tree.stop next = some text ∧ separates text ∧ tree.stop < next := by
  obtain ⟨between, hbetween, rfl⟩ := round.passes
  obtain ⟨text, hslice, htext⟩ := Pattern.exists_slice_of_reads h.delimiter hbetween
  exact ⟨text, hslice, htext, (source.lt_stop_of_slice? hslice (h.nonempty htext)).1⟩

/-- The trees of a list are separated, up to its end or up to a separator at the end of the
source, by induction on the rounds.
-/
theorem SoundList.separated (h : SoundList source item delimiter matched separates)
    (hrounds
      : Parser.Rounds item (some delimiter.parser) ahead source cursor trees stop)
    (htrees : trees ≠ [])
    : Separated source matched separates cursor trees stop
      ∨ source.size ≤ stop
        ∧ ∃ last text,
            Separated source matched separates cursor trees last
            ∧ source.slice? last stop = some text
            ∧ separates text := by
  induction hrounds with
  | exhausted => contradiction
  | found _ reads | undelimited _ reads =>
      obtain ⟨rfl, hmatched⟩ := h.item reads
      exact Or.inl (.single hmatched)
  | stalled round =>
      obtain ⟨rfl, hmatched⟩ := h.item round.reads
      obtain ⟨_, -, -, hlt⟩ := h.exists_separator round
      exact absurd hlt (Nat.not_lt.mpr (Nat.le_add_right ..))
  | @next cursor next stop tree rest round progress others ih =>
      obtain ⟨rfl, hmatched⟩ := h.item round.reads
      obtain ⟨text, hslice, htext, -⟩ := h.exists_separator round
      cases rest with
      | nil =>
          -- Nothing follows a separator but the end of the source.
          cases others with
          | exhausted outside =>
              exact Or.inr ⟨outside, tree.stop, text, .single hmatched, hslice, htext⟩
      | cons other rest =>
          rcases ih (by simp) with hothers | ⟨hsize, last, trailing, hothers, hlast, htrailing⟩
          · exact Or.inl (.cons hmatched hslice htext hothers)
          · exact Or.inr ⟨hsize, last, trailing, .cons hmatched hslice htext hothers, hlast,
              htrailing⟩

/-- The token of a list holds trees that are matched and separated, since none of them is
ignored.
-/
theorem SoundList.exists_separated (h : SoundList source item delimiter matched separates)
    (hreads : (Parser.list item (some delimiter.parser) ahead).Reads source index tree)
    : index ≤ tree.stop
      ∧ tree.isIgnored = false
      ∧ ∃ trees,
          tree.value = .tokens trees
          ∧ (Separated source matched separates index trees tree.stop
            ∨ source.size ≤ tree.stop
              ∧ ∃ last text,
                  Separated source matched separates index trees last
                  ∧ source.slice? last tree.stop = some text
                  ∧ separates text) := by
  obtain ⟨trees, stop, hrounds, hne, rfl⟩ := Parser.exists_rounds_of_list_reads hreads
  have hkept : Parser.kept trees = trees := by
    refine Parser.kept_eq_self fun tree hmem => ?_
    obtain ⟨start, hstart⟩ := hrounds.exists_reads_of_mem tree hmem
    exact h.kept (h.item hstart).2
  rw [hkept] at hne
  refine ⟨Nat.le_add_right .., rfl, trees, congrArg _ hkept, ?_⟩
  rw [Token.stop]
  rcases h.separated hrounds hne with hseparated | ⟨hsize, last, text, hseparated, hslice, htext⟩
  · have hle := (hseparated.hasSlice h.hasSlice).le
    rw [Nat.add_sub_cancel' hle]
    exact Or.inl hseparated
  · have hle := ((hseparated.hasSlice h.hasSlice).trans ⟨_, hslice⟩).le
    rw [Nat.add_sub_cancel' hle]
    exact Or.inr ⟨hsize, last, text, hseparated, hslice, htext⟩

end Lists

theorem MatchesColumn.isIgnored_eq_false (h : MatchesColumn source tree)
    : tree.isIgnored = false := by
  cases h
  rfl

theorem MatchesJoin.isIgnored_eq_false (h : MatchesJoin source tree)
    : tree.isIgnored = false := by
  cases h
  rfl

/-- Columns and commas make a sound list, for a comma is never empty. -/
theorem columns_soundList
    : SoundList source (parser column) commaPattern (MatchesColumn source) (Framed ',') := by
  refine ⟨column_sound, MatchesColumn.isIgnored_eq_false, fun _ => MatchesColumn.hasSlice,
    commaPattern_spells, ?_⟩
  rintro _ ⟨before, after, rfl, -, -⟩
  simp

/-- Joins and white space make a sound list, for this is never empty. -/
theorem joins_soundList
    : SoundList source (parser join) gapPattern (MatchesJoin source) IsGap :=
  ⟨join_sound, MatchesJoin.isIgnored_eq_false, fun _ => MatchesJoin.hasSlice,
    gapPattern_spells, And.left⟩

-----------------------------------------------------------------------------------------
-- Queries
-----------------------------------------------------------------------------------------

/-- A selection that does not end with the source holds columns, with nothing after them: a
comma would reach the end.
-/
theorem selection_sound (hreads : (parser selection).Reads source index tree)
    (hinside : tree.stop < source.size)
    : tree.index = index
      ∧ tree.isIgnored = false
      ∧ ∃ start opening trees,
          source.slice? index start = some opening
          ∧ Keyword IsBlank "SELECT" opening
          ∧ Separated source (MatchesColumn source) (Framed ',') start trees tree.stop
          ∧ tree.value = .tokens trees := by
  rw [parser_selection] at hreads
  obtain ⟨_, _, value, hrun, -, hmake, rfl⟩ := assembled_reads_iff.mp hreads
  simp only [Parser.consecutive_cons_iff, Parser.consecutive_nil_iff,
    Parser.ignored_reads_iff] at hrun
  obtain ⟨_, _, ⟨keyword, hkeyword, rfl⟩, ⟨list, _, hlist, ⟨rfl, rfl⟩, rfl⟩, rfl⟩ := hrun
  obtain ⟨opening, hslice, hopening⟩ :=
    Pattern.exists_slice_of_reads (keywordPattern_spells "SELECT") hkeyword
  obtain ⟨hle, hkept, trees, hvalue, hseparated⟩ := columns_soundList.exists_separated hlist
  rw [Parser.kept_cons_ignore, Parser.kept_cons_of_not_ignored hkept, Parser.kept_nil] at hmake
  simp only [selection?, hvalue, Value.tokens?, Option.map_some, Option.some.injEq] at hmake
  subst hmake
  have hfront : index ≤ keyword.stop := HasSlice.le ⟨_, hslice⟩
  have hstop
      : (⟨index, list.stop - index, .named "select", .tokens trees⟩ : Tree).stop = list.stop :=
    Nat.add_sub_cancel' (Nat.le_trans hfront hle)
  rw [hstop] at hinside ⊢
  refine ⟨rfl, rfl, keyword.stop, opening, trees, hslice, hopening, ?_, rfl⟩
  rcases hseparated with hseparated | ⟨hsize, -⟩
  · exact hseparated
  · exact absurd hinside (Nat.not_lt.mpr hsize)

/-- Where the joins fail, the tables of a query end with the name in front of them, and
otherwise with the joins.
-/
theorem joins_sound {start : Nat} {list : Tree}
    (hreads : (Parser.optional joins).Reads source start list)
    : MatchesJoins source start
        (((Parser.kept [list]).head?.bind (·.value.tokens?)).getD []) list.stop := by
  rcases Parser.optional_reads_iff.mp hreads with hlist | ⟨-, rfl⟩
  · obtain ⟨-, hkept, trees, hvalue, hseparated⟩ := joins_soundList.exists_separated hlist
    rw [Parser.kept_cons_of_not_ignored hkept, List.head?_cons, Option.bind_some, hvalue]
    rcases hseparated with hseparated | ⟨hsize, last, text, hseparated, hslice, htext⟩
    · exact .some hseparated
    · have hle := (source.lt_stop_of_slice? hslice htext.1).2
      rw [Nat.le_antisymm hle hsize] at hslice ⊢
      exact .trailing hseparated hslice htext
  · exact .none

/-- Tables cover a keyword, a name and the joins, which meet one another. -/
theorem tables_sound (hreads : (parser tables).Reads source index tree)
    : tree.index = index ∧ MatchesTables source tree := by
  rw [parser_tables] at hreads
  obtain ⟨_, _, value, hrun, -, hmake, rfl⟩ := assembled_reads_iff.mp hreads
  obtain ⟨_, table, list, hignored, htable, hlist, rfl, rfl⟩ :=
    Parser.consecutive_triple_iff.mp hrun
  obtain ⟨keyword, hkeyword, rfl⟩ := Parser.ignored_reads_iff.mp hignored
  obtain ⟨opening, hopeningSlice, hopening⟩ :=
    Pattern.exists_slice_of_reads (keywordPattern_spells "FROM") hkeyword
  obtain ⟨-, htableKept, tableText, htableSlice, htableName, htableValue⟩ := name_sound htable
  have hslice : source.slice? index table.stop = some (opening ++ tableText) :=
    source.slice?_append hopeningSlice htableSlice
  have hjoins := joins_sound hlist
  have hstop : index + (list.stop - index) = list.stop :=
    Nat.add_sub_cancel' (hjoins.hasSlice ⟨_, hslice⟩).le
  rw [Parser.kept_cons_ignore, Parser.kept_cons_of_not_ignored htableKept] at hmake
  simp only [tables?, htableValue, Value.text?, Option.bind_eq_bind, Option.bind_some,
    Option.pure_def, Option.some.injEq] at hmake
  subst hmake
  refine ⟨rfl, .tables hslice hopening htableName ?_⟩
  rwa [hstop]

theorem MatchesTables.isIgnored_eq_false (h : MatchesTables source tree)
    : tree.isIgnored = false := by
  cases h
  rfl

theorem MatchesFilter.isIgnored_eq_false (h : MatchesFilter source tree)
    : tree.isIgnored = false := by
  cases h
  rfl

/-- Behind the tables, there is white space and what the optional filter reads, by cases on
whether each of them is there.
-/
theorem ending_sound {start : Nat} {blank filterTree : Tree}
    (hblank : (Parser.optional gapPattern.parser).Reads source start blank)
    (hfilter : (Parser.optional (parser filter)).Reads source blank.stop filterTree)
    (hfront : HasSlice source index start)
    : MatchesEnd source start (Parser.kept [filterTree]).head? filterTree.stop := by
  have hspace : ∃ text, source.slice? start blank.stop = some text ∧ IsBlank text := by
    rcases Parser.optional_reads_iff.mp hblank with hgap | ⟨-, rfl⟩
    · obtain ⟨text, hslice, htext⟩ := Pattern.exists_slice_of_reads gapPattern_spells hgap
      exact ⟨text, hslice, htext.2⟩
    · obtain ⟨text, hslice⟩ := hfront
      exact ⟨[], source.slice?_self hslice, by simp [IsBlank]⟩
  obtain ⟨text, hslice, htext⟩ := hspace
  rcases Parser.optional_reads_iff.mp hfilter with hreads | ⟨-, rfl⟩
  · obtain ⟨hindex, hmatches⟩ := filter_sound hreads
    rw [Parser.kept_cons_of_not_ignored hmatches.isIgnored_eq_false, List.head?_cons]
    exact .some (hindex ▸ hslice) htext hmatches
  · exact .none hslice htext

/-- A query consists of its parts, which meet one another. If it has no filter, only white space
follows its tables.
-/
theorem query_sound (hreads : (parser query).Reads source index tree)
    : tree.index = index ∧ MatchesQuery source tree := by
  rw [parser_query] at hreads
  obtain ⟨_, _, value, hrun, -, hmake, rfl⟩ := assembled_reads_iff.mp hreads
  simp only [Parser.consecutive_cons_iff, Parser.consecutive_nil_iff,
    Parser.ignored_reads_iff] at hrun
  obtain ⟨selected, _, hselected, ⟨_, _, ⟨gap, hgap, rfl⟩, ⟨tablesTree, _, htables, ⟨_, _,
    ⟨blank, hblank, rfl⟩, ⟨filterTree, _, hfilter, ⟨rfl, rfl⟩, rfl⟩, rfl⟩, rfl⟩, rfl⟩, rfl⟩ :=
    hrun
  obtain ⟨between, hbetween, hisGap⟩ := Pattern.exists_slice_of_reads gapPattern_spells hgap
  obtain ⟨hlt, hsize⟩ := source.lt_stop_of_slice? hbetween hisGap.1
  obtain ⟨-, hselectedKept, start, opening, trees, hslice, hopening, hcolumns, hvalue⟩ :=
    selection_sound hselected (Nat.lt_of_lt_of_le hlt hsize)
  obtain ⟨htablesIndex, htablesMatch⟩ := tables_sound htables
  have hending := ending_sound hblank hfilter htablesMatch.hasSlice
  rw [Parser.kept_cons_of_not_ignored hselectedKept, Parser.kept_cons_ignore,
    Parser.kept_cons_of_not_ignored htablesMatch.isIgnored_eq_false,
    Parser.kept_cons_ignore] at hmake
  simp only [query?, hvalue, Value.tokens?, Option.bind_eq_bind, Option.bind_some,
    Option.pure_def, Option.some.injEq] at hmake
  subst hmake
  have hgapSlice : source.slice? selected.stop tablesTree.index = some between := by
    rw [htablesIndex]
    exact hbetween
  have hfront : HasSlice source index tablesTree.stop := by
    have hcolumnsSlice := hcolumns.hasSlice fun _ => MatchesColumn.hasSlice
    exact ((HasSlice.trans ⟨_, hslice⟩ hcolumnsSlice).trans ⟨_, hgapSlice⟩).trans
      htablesMatch.hasSlice
  have hstop : index + (filterTree.stop - index) = filterTree.stop :=
    Nat.add_sub_cancel' (hfront.trans hending.hasSlice).le
  refine ⟨rfl, .query hslice hopening hcolumns hgapSlice hisGap htablesMatch ?_⟩
  rwa [hstop]

/-- Of a source that is read, all but white space at its end is covered by a query, which matches
the source. All tokens in it lie inside of the tokens that hold them, in order.
-/
theorem parse_matches {source : Source} {tree : Tree}
    (h : (parse source).outcome = .matched tree)
    : tree.index = 0
      ∧ (∃ text after,
          source.chars = text ++ after
          ∧ source.slice? 0 tree.stop = some text
          ∧ IsBlank after)
      ∧ MatchesQuery source tree
      ∧ Nested tree := by
  simp only [parse, Reply.outcome_bind_eq_matched_iff] at h
  obtain ⟨found, hreads, hblank⟩ := h
  obtain ⟨hindex, hmatches⟩ := query_sound hreads
  split at hblank
  case isFalse => simp at hblank
  case isTrue hfrom =>
    obtain rfl := Outcome.matched.inj hblank
    refine ⟨hindex, ?_, hmatches, hmatches.nested⟩
    obtain ⟨text, hslice⟩ := hmatches.hasSlice
    rw [hindex] at hslice
    obtain ⟨-, after, hstart, hstop⟩ := source.slice?_eq_some_iff.mp hslice
    refine ⟨text, after, ?_, hslice, ?_⟩
    · obtain ⟨front, hsplit, hlength⟩ := source.rest?_eq_some_iff.mp hstart
      cases front with
      | nil => exact hsplit
      | cons char front =>
          have := byteLength_cons_pos char front
          omega
    · exact (source.isBlankFrom_iff_of_rest? hstop).mp hfrom

/-- A query that starts with a long s. Two of its tables are named like keywords, and
one of its strings is spelled like one.
-/
def keywordsText : String :=
  "ſelect a.b ,c.d from from Join on oN 'it''s' <> 'where' where a.b<=4 "

/-- This query is read up to its end, and its token matches it and is nested. -/
theorem keywords_parse_matches
    : ∃ tree,
        let source := Source.ofString keywordsText
        (parse source).outcome = .matched tree
        ∧ tree.stop = 69
        ∧ tree.index = 0
        ∧ (∃ text after,
            source.chars = text ++ after
            ∧ source.slice? 0 tree.stop = some text
            ∧ IsBlank after)
        ∧ MatchesQuery source tree
        ∧ Nested tree := by
  have hstop
      : (parse (.ofString keywordsText)).outcome.result?.map Token.stop = some 69 := by
    decide +kernel
  obtain ⟨tree, hresult, hstop⟩ := Option.map_eq_some_iff.mp hstop
  have hparse := Outcome.result?_eq_some_iff.mp hresult
  exact ⟨tree, hparse, hstop, parse_matches hparse⟩

end TokenGrammar.Query
