import TokenGrammar.Proofs.Arithmetic.Syntax
import TokenGrammar.Proofs.Query.Patterns

/-! Abstract queries: how they are written down, with any case of the keywords and any white space
between their parts, and the tree that each of them stands for, apart from positions.
-/

namespace TokenGrammar.Query

open Arithmetic (Blank Numeral)

-----------------------------------------------------------------------------------------
-- Abstract queries
-----------------------------------------------------------------------------------------

/-- Some white space. -/
structure Gap where
  chars : List Char
  isGap : IsGap chars

/-- A keyword in upper case, lower case or a mixture of them. -/
structure Spelling (word : String) where
  chars : List Char
  toUpper_eq : chars.map Char.toUpper = word.toList

/-- A keyword with white space on both sides. -/
structure SpacedWord (word : String) where
  before : Gap
  spelling : Spelling word
  after : Gap

/-- A letter, then letters, digits and underscores. It may be spelled like a keyword. -/
structure Name where
  head : Char
  tail : List Char
  head_isAlpha : head.isAlpha
  tail_isPart : ∀ char ∈ tail, char.isAlphanum ∨ char = '_'

/-- A column of a table. -/
structure ColumnName where
  table : Name
  column : Name

/-- A column, a literal, or a string with any characters in it. -/
inductive Operand where
  | column (name : ColumnName)
  | number (numeral : Numeral)
  | string (content : List Char)

/-- The sign of a comparison. -/
structure Comparison where
  sign : String
  mem_comparisons : sign ∈ comparisons

/-- A comparison of two operands. -/
structure Condition where
  left : Operand
  before : Blank
  comparison : Comparison
  after : Blank
  right : Operand

/-- A joined table and its test. -/
structure JoinClause where
  opening : SpacedWord "JOIN"
  table : Name
  inner : SpacedWord "ON"
  test : Condition

/-- The filter of a query. -/
structure FilterClause where
  opening : SpacedWord "WHERE"
  test : Condition

/-- A column behind a comma. -/
structure NextColumn where
  before : Blank
  after : Blank
  column : ColumnName

/-- A whole query, with one column at least. -/
structure Statement where
  before : Blank
  opening : Spelling "SELECT"
  after : Gap
  first : ColumnName
  others : List NextColumn
  inner : SpacedWord "FROM"
  table : Name
  joins : List JoinClause
  filter : Option FilterClause
  trailing : Blank

-----------------------------------------------------------------------------------------
-- Texts
-----------------------------------------------------------------------------------------

/-- The characters of a keyword and the white space around it. -/
def SpacedWord.render {word : String} (spaced : SpacedWord word) : List Char :=
  spaced.before.chars ++ (spaced.spelling.chars ++ spaced.after.chars)

/-- The characters of a name. -/
def Name.render (name : Name) : List Char :=
  name.head :: name.tail

/-- The characters of a column. -/
def ColumnName.render (column : ColumnName) : List Char :=
  column.table.render ++ '.' :: column.column.render

/-- The characters of an operand. Quotes in a string are doubled. -/
def Operand.render : Operand → List Char
  | .column name => name.render
  | .number numeral => numeral.render
  | .string content => '\'' :: (doubled content ++ ['\''])

/-- The characters of a comparison. -/
def Condition.render (condition : Condition) : List Char :=
  condition.left.render
  ++ (condition.before.chars
    ++ (condition.comparison.sign.toList
      ++ (condition.after.chars ++ condition.right.render)))

/-- The characters of a join. -/
def JoinClause.render (join : JoinClause) : List Char :=
  join.opening.render ++ (join.table.render ++ (join.inner.render ++ join.test.render))

/-- The characters of a filter. -/
def FilterClause.render (filter : FilterClause) : List Char :=
  filter.opening.render ++ filter.test.render

/-- The characters of a column and the comma in front of it. -/
def NextColumn.render (next : NextColumn) : List Char :=
  next.before.chars ++ ',' :: (next.after.chars ++ next.column.render)

/-- The characters of the joins of a query. -/
def renderJoins (joins : List JoinClause) : List Char :=
  joins.flatMap JoinClause.render

/-- The characters of what ends a query. -/
def renderEnd (filter : Option FilterClause) (trailing : Blank) : List Char :=
  (filter.map FilterClause.render).getD [] ++ trailing.chars

/-- The characters of a query. -/
def Statement.render (statement : Statement) : List Char :=
  statement.before.chars
  ++ (statement.opening.chars
    ++ (statement.after.chars
      ++ (statement.first.render
        ++ (statement.others.flatMap NextColumn.render
          ++ (statement.inner.render
            ++ (statement.table.render
              ++ (renderJoins statement.joins
                ++ renderEnd statement.filter statement.trailing)))))))

-----------------------------------------------------------------------------------------
-- Trees
-----------------------------------------------------------------------------------------

/-- The tree that a name stands for, without positions. -/
def Name.tree (kind : String) (name : Name) : Tree :=
  ⟨0, 0, .named kind, .text (String.ofList name.render)⟩

/-- The tree that a column stands for. -/
def ColumnName.tree (column : ColumnName) : Tree :=
  ⟨0, 0, .named "column-id",
    .custom (.column (String.ofList column.table.render) (String.ofList column.column.render))⟩

/-- The tree that an operand stands for. -/
def Operand.tree : Operand → Tree
  | .column name => name.tree
  | .number numeral => ⟨0, 0, .named "number", .custom (.number numeral.value)⟩
  | .string content => ⟨0, 0, .named "string", .text (String.ofList content)⟩

/-- The tree that a comparison stands for. -/
def Condition.tree (condition : Condition) : Tree :=
  ⟨0, 0, .named "value-test",
    .custom (.test condition.left.tree condition.comparison.sign condition.right.tree)⟩

/-- The tree that a join stands for. -/
def JoinClause.tree (join : JoinClause) : Tree :=
  ⟨0, 0, .named "join", .custom (.join (String.ofList join.table.render) join.test.tree)⟩

/-- The tree that a filter stands for. -/
def FilterClause.tree (filter : FilterClause) : Tree :=
  ⟨0, 0, .named "where", .token filter.test.tree⟩

/-- The tree that the tables of a query stand for. -/
def tablesTree (table : Name) (joins : List JoinClause) : Tree :=
  ⟨0, 0, .named "from",
    .custom (.tables (String.ofList table.render) (joins.map JoinClause.tree))⟩

/-- The tree that a query stands for. -/
def Statement.tree (statement : Statement) : Tree :=
  ⟨0, 0, .named "query",
    .custom
      (.query (statement.first.tree :: statement.others.map (·.column.tree))
        (tablesTree statement.table statement.joins)
        (statement.filter.map FilterClause.tree))⟩

mutual

/-- The tree with all positions erased. -/
def unplaced : Tree → Tree
  | ⟨_, _, kind, value⟩ => ⟨0, 0, kind, unplacedValue value⟩

/-- The value with the positions in its tokens erased. -/
def unplacedValue : Value Node → Value Node
  | .token content => .token (unplaced content)
  | .tokens content => .tokens (unplacedTokens content)
  | .custom content => .custom (unplacedNode content)
  | .none => .none
  | .text content => .text content
  | .groups content => .groups content

/-- The trees with all positions erased. -/
def unplacedTokens : List Tree → List Tree
  | [] => []
  | tree :: rest => unplaced tree :: unplacedTokens rest

/-- The tree, if there is one, with all positions erased. -/
def unplacedToken? : Option Tree → Option Tree
  | none => none
  | some tree => some (unplaced tree)

/-- The data with the positions in its tokens erased. -/
def unplacedNode : Node → Node
  | .number value => .number value
  | .column table column => .column table column
  | .test left operator right => .test (unplaced left) operator (unplaced right)
  | .join table test => .join table (unplaced test)
  | .tables first joins => .tables first (unplacedTokens joins)
  | .query columns tables filter =>
      .query (unplacedTokens columns) (unplaced tables) (unplacedToken? filter)

end

/-- Several trees lose their positions one by one, by induction on them. -/
theorem unplacedTokens_eq_map (trees : List Tree) : unplacedTokens trees = trees.map unplaced := by
  induction trees with
  | nil => rfl
  | cons tree rest ih => rw [unplacedTokens, ih, List.map_cons]

theorem unplacedToken?_eq_map (tree : Option Tree) : unplacedToken? tree = tree.map unplaced := by
  cases tree <;> rfl

end TokenGrammar.Query
