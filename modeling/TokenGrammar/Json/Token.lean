import TokenGrammar.Json.Document
import TokenGrammar.Token

/-! Tokens as JSON documents. Values are written without saying of what form they are. -/

namespace TokenGrammar

open Json (Document)

/-- A text, or null if it is absent. -/
def Json.optionalString : Option String → Document
  | none => .null
  | some content => .string content

/-- The name of a kind; the kind ignore has none. -/
def Kind.document (kind : Kind) : Document :=
  Json.optionalString kind.name?

/-- The texts of all groups. -/
def Groups.document (groups : Groups) : Document :=
  .array (groups.texts.map Json.optionalString)

/-- The object of a token's span, its kind and the document of its value. -/
def tokenDocument (index size : Nat) (kind : Kind) (value : Document) : Document :=
  .object
    [("index", .integer index), ("size", .integer size), ("type", kind.document),
      ("value", value)]

section Documents

variable {α : Type} (custom : α → Document)

mutual

/-- A token as a document. -/
def Token.document : Token α → Document
  | ⟨index, size, kind, value⟩ => tokenDocument index size kind value.document

/-- A value, with custom data written in their own way. -/
def Value.document : Value α → Document
  | .none => .null
  | .text content => .string content
  | .groups content => content.document
  | .token content => content.document
  | .tokens content => .array (tokenDocuments content)
  | .custom content => custom content

/-- The documents of several tokens. -/
def tokenDocuments : List (Token α) → List Document
  | [] => []
  | token :: rest => token.document :: tokenDocuments rest

end

end Documents

end TokenGrammar
