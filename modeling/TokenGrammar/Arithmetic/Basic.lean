import TokenGrammar.Json.Token

/-! The data of arithmetic expressions. Names are texts and parentheses hold a token, so only
numbers, operations and assignments need data of their own.
-/

namespace TokenGrammar.Arithmetic

/-- A number, an operation on two operands, or an assignment to a name. -/
inductive Node where
  | number (value : Float)
  | binary (left : Token Node) (operator : Char) (right : Token Node)
  | assignment (name : String) (right : Token Node)

/-- A token of an arithmetic expression. -/
abbrev Tree := Token Node

open Json (Document)

mutual

/-- An arithmetic token as a document. -/
def treeDocument : Tree → Document
  | ⟨index, size, kind, value⟩ => tokenDocument index size kind (valueDocument value)

/-- The value of an arithmetic token as a document. -/
def valueDocument : Value Node → Document
  | .none => .null
  | .text content => .string content
  | .groups content => content.document
  | .token content => treeDocument content
  | .tokens content => .array (treeDocuments content)
  | .custom content => content.document

/-- The documents of several arithmetic tokens. -/
def treeDocuments : List Tree → List Document
  | [] => []
  | tree :: rest => treeDocument tree :: treeDocuments rest

/-- The data of an arithmetic token as a document. -/
def Node.document : Node → Document
  | .number value => .number value
  | .binary left operator right =>
      .object
        [("lhs", treeDocument left), ("op", .string operator.toString),
          ("rhs", treeDocument right)]
  | .assignment name right =>
      .object [("name", .string name), ("rhs", treeDocument right)]

end

end TokenGrammar.Arithmetic
