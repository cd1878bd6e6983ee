import TokenGrammar.Proofs.Query.Patterns

/-! Trees of queries that match the source that they cover. Each token is told apart into slices of
the source, which are keywords, marks, white space, names and the tokens in it, and nothing else.
-/

namespace TokenGrammar.Query

open Arithmetic (IsBlank Framed)

-----------------------------------------------------------------------------------------
-- Tokens and slices
-----------------------------------------------------------------------------------------

section Relations

variable (source : Source)

/-- The token is a column: the names of a table and of the column, with a dot between them. -/
inductive MatchesColumn : Tree → Prop where
  | column {index size : Nat} {table column : List Char}
    (slice : source.slice? index (index + size) = some (table ++ '.' :: column))
    (tableName : IsName table) (columnName : IsName column)
    : MatchesColumn
        ⟨index, size, .named "column-id",
          .custom (.column (String.ofList table) (String.ofList column))⟩

/-- The token is something to compare. A number is what its text reads as, and the text of a
string has all its quotes doubled, between two more quotes.
-/
inductive MatchesOperand : Tree → Prop where
  | column {tree : Tree} (column : MatchesColumn source tree) : MatchesOperand tree
  | number {index size : Nat} {text : List Char} {value : Float}
    (slice : source.slice? index (index + size) = some text) (numeral : IsNumeral text)
    (read : Binary64.read (String.ofList text) = .ok value)
    : MatchesOperand ⟨index, size, .named "number", .custom (.number value)⟩
  | string {index size : Nat} {content : List Char}
    (slice
      : source.slice? index (index + size) = some ('\'' :: (doubled content ++ ['\''])))
    : MatchesOperand ⟨index, size, .named "string", .text (String.ofList content)⟩

/-- The token is a comparison: its operands, with a sign and white space between them. -/
inductive MatchesTest : Tree → Prop where
  | test {index size : Nat} {left right : Tree} {sign : String} {before after : List Char}
    (start : index = left.index) (stop : index + size = right.stop)
    (leftMatches : MatchesOperand source left) (rightMatches : MatchesOperand source right)
    (slice
      : source.slice? left.stop right.index = some (before ++ (sign.toList ++ after)))
    (known : sign ∈ comparisons) (blankBefore : IsBlank before) (blankAfter : IsBlank after)
    : MatchesTest ⟨index, size, .named "value-test", .custom (.test left sign right)⟩

/-- The token is a filter: a keyword and a test. -/
inductive MatchesFilter : Tree → Prop where
  | filter {index size : Nat} {test : Tree} {opening : List Char}
    (slice : source.slice? index test.index = some opening)
    (keyword : Keyword IsBlank "WHERE" opening) (stop : index + size = test.stop)
    (testMatches : MatchesTest source test)
    : MatchesFilter ⟨index, size, .named "where", .token test⟩

/-- The token is a join: the name of a table and a test, with a keyword before each. -/
inductive MatchesJoin : Tree → Prop where
  | join {index size : Nat} {test : Tree} {opening table between : List Char}
    (slice : source.slice? index test.index = some (opening ++ (table ++ between)))
    (keyword : Keyword IsBlank "JOIN" opening) (tableName : IsName table)
    (inner : Keyword IsGap "ON" between) (stop : index + size = test.stop)
    (testMatches : MatchesTest source test)
    : MatchesJoin ⟨index, size, .named "join", .custom (.join (String.ofList table) test)⟩

/-- The trees stand from one offset to another, with separators between them. -/
inductive Separated (matched : Tree → Prop) (separates : List Char → Prop)
    : Nat → List Tree → Nat → Prop where
  | single {tree : Tree} (treeMatches : matched tree)
    : Separated matched separates tree.index [tree] tree.stop
  | cons {tree : Tree} {rest : List Tree} {next stop : Nat} {between : List Char}
    (treeMatches : matched tree) (slice : source.slice? tree.stop next = some between)
    (separator : separates between) (others : Separated matched separates next rest stop)
    : Separated matched separates tree.index (tree :: rest) stop

/-- The joins, if there are any, stand from one offset to another, with white space between them.
More of it may follow them at the end of the source.
-/
inductive MatchesJoins : Nat → List Tree → Nat → Prop where
  | none {start : Nat} : MatchesJoins start [] start
  | some {start stop : Nat} {joins : List Tree}
    (each : Separated source (MatchesJoin source) IsGap start joins stop)
    : MatchesJoins start joins stop
  | trailing {start stop : Nat} {joins : List Tree} {text : List Char}
    (each : Separated source (MatchesJoin source) IsGap start joins stop)
    (slice : source.slice? stop source.size = some text) (gap : IsGap text)
    : MatchesJoins start joins source.size

/-- The token is the tables of a query: a keyword, the name of a table and joins. -/
inductive MatchesTables : Tree → Prop where
  | tables {index size start : Nat} {joins : List Tree} {opening table : List Char}
    (slice : source.slice? index start = some (opening ++ table))
    (keyword : Keyword IsBlank "FROM" opening) (tableName : IsName table)
    (joinsMatch : MatchesJoins source start joins (index + size))
    : MatchesTables
        ⟨index, size, .named "from", .custom (.tables (String.ofList table) joins)⟩

/-- From an offset on, there is white space, and a filter if there is one at all. -/
inductive MatchesEnd : Nat → Option Tree → Nat → Prop where
  | none {start stop : Nat} {trailing : List Char}
    (slice : source.slice? start stop = some trailing) (blank : IsBlank trailing)
    : MatchesEnd start none stop
  | some {start : Nat} {filter : Tree} {between : List Char}
    (slice : source.slice? start filter.index = some between) (blank : IsBlank between)
    (filterMatches : MatchesFilter source filter)
    : MatchesEnd start (some filter) filter.stop

/-- The token is a query: a keyword, columns with commas between them, white space, tables and
perhaps a filter.
-/
inductive MatchesQuery : Tree → Prop where
  | query {index size start stop : Nat} {columns : List Tree} {tables : Tree}
    {filter : Option Tree} {opening between : List Char}
    (slice : source.slice? index start = some opening)
    (keyword : Keyword IsBlank "SELECT" opening)
    (columnsMatch : Separated source (MatchesColumn source) (Framed ',') start columns stop)
    (gap : source.slice? stop tables.index = some between) (isGap : IsGap between)
    (tablesMatch : MatchesTables source tables)
    (ending : MatchesEnd source tables.stop filter (index + size))
    : MatchesQuery ⟨index, size, .named "query", .custom (.query columns tables filter)⟩

end Relations

-----------------------------------------------------------------------------------------
-- Slices of whole tokens
-----------------------------------------------------------------------------------------

section Slices

variable {source : Source} {tree : Tree} {trees : List Tree} {start stop : Nat}

/-- There is a slice of the source between the offsets. -/
def HasSlice (source : Source) (start stop : Nat) : Prop :=
  ∃ text, source.slice? start stop = some text

theorem HasSlice.trans {middle : Nat} (h : HasSlice source start middle)
    (h' : HasSlice source middle stop)
    : HasSlice source start stop := by
  obtain ⟨text, htext⟩ := h
  obtain ⟨text', htext'⟩ := h'
  exact ⟨text ++ text', source.slice?_append htext htext'⟩

theorem HasSlice.le (h : HasSlice source start stop) : start ≤ stop := by
  obtain ⟨text, htext⟩ := h
  exact (source.slice?_eq_some_iff.mp htext).1

theorem MatchesColumn.hasSlice (h : MatchesColumn source tree)
    : HasSlice source tree.index tree.stop := by
  cases h with
  | column slice => exact ⟨_, slice⟩

/-- There is a slice under an operand, by cases on its sort. -/
theorem MatchesOperand.hasSlice (h : MatchesOperand source tree)
    : HasSlice source tree.index tree.stop := by
  cases h with
  | column column => exact column.hasSlice
  | number slice => exact ⟨_, slice⟩
  | string slice => exact ⟨_, slice⟩

/-- There is a slice under a test, which is put together from those of its operands and the
sign.
-/
theorem MatchesTest.hasSlice (h : MatchesTest source tree)
    : HasSlice source tree.index tree.stop := by
  cases h with
  | test start stop leftMatches rightMatches slice =>
      have hleft := leftMatches.hasSlice
      rw [← start] at hleft
      have hright := rightMatches.hasSlice
      rw [← stop] at hright
      exact (hleft.trans ⟨_, slice⟩).trans hright

/-- There is a slice under a filter, which is put together from its keyword and that of its
test.
-/
theorem MatchesFilter.hasSlice (h : MatchesFilter source tree)
    : HasSlice source tree.index tree.stop := by
  cases h with
  | filter slice _ stop testMatches =>
      have htest := testMatches.hasSlice
      rw [← stop] at htest
      exact HasSlice.trans ⟨_, slice⟩ htest

/-- There is a slice under a join, which is put together from what is in front of its test and
that of the test.
-/
theorem MatchesJoin.hasSlice (h : MatchesJoin source tree)
    : HasSlice source tree.index tree.stop := by
  cases h with
  | join slice _ _ _ stop testMatches =>
      have htest := testMatches.hasSlice
      rw [← stop] at htest
      exact HasSlice.trans ⟨_, slice⟩ htest

/-- There is a slice under separated trees, which is put together from theirs and the
separators, by induction on them.
-/
theorem Separated.hasSlice {matched : Tree → Prop} {separates : List Char → Prop}
    (h : Separated source matched separates start trees stop)
    (hmatched : ∀ tree, matched tree → HasSlice source tree.index tree.stop)
    : HasSlice source start stop := by
  induction h with
  | single treeMatches => exact hmatched _ treeMatches
  | cons treeMatches slice _ _ ih => exact ((hmatched _ treeMatches).trans ⟨_, slice⟩).trans ih

/-- Joins go on with the slice in front of them, by cases on whether there are any. -/
theorem MatchesJoins.hasSlice (h : MatchesJoins source start trees stop) {index : Nat}
    (hfront : HasSlice source index start)
    : HasSlice source index stop := by
  cases h with
  | none => exact hfront
  | some each => exact hfront.trans (each.hasSlice fun _ => MatchesJoin.hasSlice)
  | trailing each slice =>
      exact (hfront.trans (each.hasSlice fun _ => MatchesJoin.hasSlice)).trans ⟨_, slice⟩

/-- There is a slice under tables, since their joins go on with that of their name. -/
theorem MatchesTables.hasSlice (h : MatchesTables source tree)
    : HasSlice source tree.index tree.stop := by
  cases h with
  | tables slice _ _ joinsMatch => exact joinsMatch.hasSlice ⟨_, slice⟩

/-- There is a slice under what ends a query, by cases on whether there is a filter. -/
theorem MatchesEnd.hasSlice {filter : Option Tree} (h : MatchesEnd source start filter stop)
    : HasSlice source start stop := by
  cases h with
  | none slice => exact ⟨_, slice⟩
  | some slice _ filterMatches => exact HasSlice.trans ⟨_, slice⟩ filterMatches.hasSlice

/-- There is a slice under a query, which is put together from those of its parts. -/
theorem MatchesQuery.hasSlice (h : MatchesQuery source tree)
    : HasSlice source tree.index tree.stop := by
  cases h with
  | query slice _ columnsMatch gap _ tablesMatch ending =>
      have hcolumns := columnsMatch.hasSlice fun _ => MatchesColumn.hasSlice
      exact ((((HasSlice.trans ⟨_, slice⟩ hcolumns).trans ⟨_, gap⟩).trans
        tablesMatch.hasSlice).trans ending.hasSlice)

end Slices

-----------------------------------------------------------------------------------------
-- Nesting
-----------------------------------------------------------------------------------------

/-- The tokens that a token holds, in the order of its parts. -/
def children (tree : Tree) : List Tree :=
  match tree.value with
  | .token inner => [inner]
  | .custom (.test left _ right) => [left, right]
  | .custom (.join _ test) => [test]
  | .custom (.tables _ joins) => joins
  | .custom (.query columns tables filter) => columns ++ (tables :: filter.toList)
  | _ => []

/-- The tokens lie between the offsets, in this order and without overlap. -/
def InOrder : Nat → List Tree → Nat → Prop
  | start, [], stop => start ≤ stop
  | start, tree :: rest, stop => start ≤ tree.index ∧ InOrder tree.stop rest stop

/-- All tokens in the tree lie inside of the one that holds them, in order and without overlap. -/
inductive Nested : Tree → Prop where
  | intro {tree : Tree} (ordered : InOrder tree.index (children tree) tree.stop)
    (each : ∀ child ∈ children tree, Nested child)
    : Nested tree

section Nesting

variable {source : Source} {tree : Tree} {trees rest : List Tree} {start stop : Nat}

/-- Tokens in order lie behind any earlier offset as well. -/
theorem InOrder.from_le {before : Nat} (hle : before ≤ start) (h : InOrder start trees stop)
    : InOrder before trees stop := by
  cases trees with
  | nil => exact Nat.le_trans hle h
  | cons tree rest => exact ⟨Nat.le_trans hle h.1, h.2⟩

/-- Tokens in order may follow others in order, by induction on the first ones. -/
theorem InOrder.append {middle : Nat} (h : InOrder start trees middle)
    (hrest : InOrder middle rest stop)
    : InOrder start (trees ++ rest) stop := by
  induction trees generalizing start with
  | nil => exact hrest.from_le h
  | cons tree trees ih => exact ⟨h.1, ih h.2⟩

/-- Tokens in order lie in front of any later offset as well, by induction on them. -/
theorem InOrder.until_le {after : Nat} (h : InOrder start trees stop) (hle : stop ≤ after)
    : InOrder start trees after := by
  induction trees generalizing start with
  | nil => exact Nat.le_trans h hle
  | cons tree trees ih => exact ⟨h.1, ih h.2⟩

/-- A token without others in it is nested, since it does not end before it starts. -/
theorem nested_of_children_eq_nil (h : children tree = []) : Nested tree := by
  refine .intro ?_ ?_
  · rw [h]
    exact Nat.le_add_right ..
  · simp [h]

/-- An operand is nested, for it holds no other tokens. -/
theorem MatchesOperand.nested (h : MatchesOperand source tree) : Nested tree := by
  cases h with
  | column column =>
      cases column with
      | column => exact nested_of_children_eq_nil rfl
  | number => exact nested_of_children_eq_nil rfl
  | string => exact nested_of_children_eq_nil rfl

theorem MatchesTest.nested (h : MatchesTest source tree) : Nested tree := by
  cases h with
  | test start stop leftMatches rightMatches slice =>
      have hbetween := HasSlice.le ⟨_, slice⟩
      refine .intro ⟨Nat.le_of_eq start, hbetween, Nat.le_of_eq stop.symm⟩ ?_
      simp [children, leftMatches.nested, rightMatches.nested]

/-- A token with a single one in it, up to its end, is nested if that one is. -/
theorem nested_of_children_eq_singleton {child : Tree} (h : children tree = [child])
    (hindex : tree.index ≤ child.index) (hstop : tree.stop = child.stop) (hchild : Nested child)
    : Nested tree := by
  refine .intro ?_ ?_
  · rw [h]
    exact ⟨hindex, Nat.le_of_eq hstop.symm⟩
  · simpa [h] using hchild

theorem MatchesFilter.nested (h : MatchesFilter source tree) : Nested tree := by
  cases h with
  | filter slice _ stop testMatches =>
      exact nested_of_children_eq_singleton rfl (HasSlice.le ⟨_, slice⟩) stop
        testMatches.nested

theorem MatchesJoin.nested (h : MatchesJoin source tree) : Nested tree := by
  cases h with
  | join slice _ _ _ stop testMatches =>
      exact nested_of_children_eq_singleton rfl (HasSlice.le ⟨_, slice⟩) stop
        testMatches.nested

/-- Separated trees are in order, by induction on them. -/
theorem Separated.inOrder {matched : Tree → Prop} {separates : List Char → Prop}
    (h : Separated source matched separates start trees stop)
    : InOrder start trees stop := by
  induction h with
  | single => exact ⟨Nat.le_refl _, Nat.le_refl _⟩
  | cons _ slice _ _ ih =>
      exact ⟨Nat.le_refl _, ih.from_le (HasSlice.le ⟨_, slice⟩)⟩

/-- Separated trees are nested if trees of their sort are, by induction on them. -/
theorem Separated.nested {matched : Tree → Prop} {separates : List Char → Prop}
    (h : Separated source matched separates start trees stop)
    (hmatched : ∀ tree, matched tree → Nested tree)
    : ∀ tree ∈ trees, Nested tree := by
  induction h with
  | single treeMatches => simpa using hmatched _ treeMatches
  | cons treeMatches _ _ _ ih =>
      exact List.forall_mem_cons.mpr ⟨hmatched _ treeMatches, ih⟩

/-- Joins are in order, by cases on whether there are any. -/
theorem MatchesJoins.inOrder (h : MatchesJoins source start trees stop)
    : InOrder start trees stop := by
  cases h with
  | none => exact Nat.le_refl _
  | some each => exact each.inOrder
  | trailing each slice => exact each.inOrder.until_le (HasSlice.le ⟨_, slice⟩)

/-- Joins are nested, by cases on whether there are any. -/
theorem MatchesJoins.nested (h : MatchesJoins source start trees stop)
    : ∀ tree ∈ trees, Nested tree := by
  cases h with
  | none => simp
  | some each | trailing each => exact each.nested fun _ => MatchesJoin.nested

theorem MatchesTables.nested (h : MatchesTables source tree) : Nested tree := by
  cases h with
  | tables slice _ _ joinsMatch =>
      exact .intro (joinsMatch.inOrder.from_le (HasSlice.le ⟨_, slice⟩)) joinsMatch.nested

/-- What ends a query is in order behind its tables, by cases on whether there is a filter. -/
theorem MatchesEnd.inOrder {filter : Option Tree} (h : MatchesEnd source start filter stop)
    : InOrder start filter.toList stop := by
  cases h with
  | none slice => exact HasSlice.le ⟨_, slice⟩
  | some slice _ filterMatches => exact ⟨HasSlice.le ⟨_, slice⟩, Nat.le_refl _⟩

/-- What ends a query is nested, by cases on whether there is a filter. -/
theorem MatchesEnd.nested {filter : Option Tree} (h : MatchesEnd source start filter stop)
    : ∀ tree ∈ filter.toList, Nested tree := by
  cases h with
  | none => simp
  | some _ _ filterMatches => simpa using filterMatches.nested

theorem MatchesQuery.nested (h : MatchesQuery source tree) : Nested tree := by
  cases h with
  | query slice _ columnsMatch gap _ tablesMatch ending =>
      have hcolumns := columnsMatch.inOrder.from_le (HasSlice.le ⟨_, slice⟩)
      refine .intro (hcolumns.append ⟨HasSlice.le ⟨_, gap⟩, ending.inOrder⟩) ?_
      refine List.forall_mem_append.mpr ⟨?_, List.forall_mem_cons.mpr ⟨?_, ending.nested⟩⟩
      · exact columnsMatch.nested fun _ column => (MatchesOperand.column column).nested
      · exact tablesMatch.nested

end Nesting

end TokenGrammar.Query
