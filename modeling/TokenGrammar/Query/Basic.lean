import TokenGrammar.Json.Token

/-! The data of queries. Names and strings are texts, the columns of a selection are tokens and a
filter holds the token of its test; all else has data of its own.
-/

namespace TokenGrammar.Query

/-- A number, a column of a table, a comparison of two values, a join of a table under a test,
the tables of a query, or a whole query.
-/
inductive Node where
  | number (value : Float)
  | column (table column : String)
  | test (left : Token Node) (operator : String) (right : Token Node)
  | join (table : String) (test : Token Node)
  | tables (first : String) (joins : List (Token Node))
  | query (columns : List (Token Node)) (tables : Token Node) (filter : Option (Token Node))

/-- A token of a query. -/
abbrev Tree := Token Node

open Json (Document)

mutual

/-- A token of a query as a document. -/
def treeDocument : Tree → Document
  | ⟨index, size, kind, value⟩ => tokenDocument index size kind (valueDocument value)

/-- The value of a token of a query as a document. -/
def valueDocument : Value Node → Document
  | .none => .null
  | .text content => .string content
  | .groups content => content.document
  | .token content => treeDocument content
  | .tokens content => .array (treeDocuments content)
  | .custom content => content.document

/-- The documents of several tokens of a query. -/
def treeDocuments : List Tree → List Document
  | [] => []
  | tree :: rest => treeDocument tree :: treeDocuments rest

/-- The document of a token that may be absent, which is null then. -/
def optionalDocument : Option Tree → Document
  | none => .null
  | some tree => treeDocument tree

/-- The data of a token of a query as a document. -/
def Node.document : Node → Document
  | .number value => .number value
  | .column table column => .object [("table", .string table), ("column", .string column)]
  | .test left operator right =>
      .object
        [("lhs", treeDocument left), ("op", .string operator), ("rhs", treeDocument right)]
  | .join table test => .object [("table", .string table), ("test", treeDocument test)]
  | .tables first joins =>
      .object [("table", .string first), ("joins", .array (treeDocuments joins))]
  | .query columns tables filter =>
      .object
        [("select", .array (treeDocuments columns)), ("from", treeDocument tables),
          ("where", optionalDocument filter)]

end

end TokenGrammar.Query
