/-! Tokens: labelled values together with the span of the source from which they were read. -/

namespace TokenGrammar

-----------------------------------------------------------------------------------------
-- Kinds and capture groups
-----------------------------------------------------------------------------------------

/-- The label of a token. A token of kind ignore is consumed text without a payload. -/
inductive Kind where
  | ignore
  | named (name : String)
  deriving DecidableEq, Repr

/-- The name, unless the kind is ignore. -/
def Kind.name? : Kind → Option String
  | .ignore => none
  | .named name => some name

/-- The label to show to a reader. -/
def Kind.label : Kind → String
  | .ignore => "<ignore>"
  | .named name => name

/-- The texts that the groups of a pattern matched, each with the name of its group. Group 0
is the whole match; a group that took no part has no text.
-/
structure Groups where
  texts : List (Option String) := []
  names : List (Option String) := []
  deriving DecidableEq, Repr

namespace Groups

/-- Number of groups, the whole match included. -/
def size (groups : Groups) : Nat :=
  groups.texts.length

/-- There is not even a whole match. -/
def isEmpty (groups : Groups) : Bool :=
  groups.texts.isEmpty

/-- The text of the group with this number, if there is one and it took part. -/
def get? (groups : Groups) (number : Nat) : Option String :=
  groups.texts[number]?.join

/-- The text of the whole match. -/
def full? (groups : Groups) : Option String :=
  groups.get? 0

/-- The text of the first group with this name. -/
def named? (groups : Groups) (name : String) : Option String :=
  match groups.names.findIdx? (· == some name) with
  | some number => groups.get? number
  | none => none

end Groups

-----------------------------------------------------------------------------------------
-- Tokens and their values
-----------------------------------------------------------------------------------------

mutual

/-- A labelled value that was read from size bytes of the source, starting at index. -/
structure Token (α : Type) where
  index : Nat
  size : Nat
  kind : Kind
  value : Value α

/-- The payload of a token: the text of a literal, the groups of a pattern, one token or many,
or data of the grammar's own.
-/
inductive Value (α : Type) where
  | none
  | text (content : String)
  | groups (content : Groups)
  | token (content : Token α)
  | tokens (content : List (Token α))
  | custom (content : α)

end

variable {α : Type}

namespace Value

/-- There is no payload. -/
def isNone : Value α → Bool
  | .none => true
  | _ => false

/-- The text of a text value. -/
def text? : Value α → Option String
  | .text content => some content
  | _ => Option.none

/-- The groups of a groups value. -/
def groups? : Value α → Option Groups
  | .groups content => some content
  | _ => Option.none

/-- The token of a token value. -/
def token? : Value α → Option (Token α)
  | .token content => some content
  | _ => Option.none

/-- The tokens of a tokens value. -/
def tokens? : Value α → Option (List (Token α))
  | .tokens content => some content
  | _ => Option.none

/-- The data of a custom value. -/
def custom? : Value α → Option α
  | .custom content => some content
  | _ => Option.none

end Value

namespace Token

/-- A token that only records that text was consumed. -/
def ignored (index size : Nat) : Token α :=
  { index, size, kind := .ignore, value := .none }

/-- The offset just after the token. -/
def stop (token : Token α) : Nat :=
  token.index + token.size

/-- The token is of kind ignore. -/
def isIgnored (token : Token α) : Bool :=
  token.kind == .ignore

/-- The token is labelled with this name. -/
def isNamed (token : Token α) (name : String) : Bool :=
  token.kind == .named name

/-- The same span with another label and payload. -/
def relabel (token : Token α) (kind : Kind) (value : Value α) : Token α :=
  { token with kind, value }

/-- The same span without label and payload. -/
def ignore (token : Token α) : Token α :=
  ignored token.index token.size

end Token

-----------------------------------------------------------------------------------------
-- Equality
-----------------------------------------------------------------------------------------

section Equality

variable [BEq α]

mutual

/-- Two tokens have the same span and kind and equal values. -/
def Token.same : Token α → Token α → Bool
  | ⟨index, size, kind, value⟩, ⟨index', size', kind', value'⟩ =>
      index == index' && size == size' && kind == kind' && value.same value'

/-- Two values have the same form and equal contents. -/
def Value.same : Value α → Value α → Bool
  | .none, .none => true
  | .text content, .text content' => content == content'
  | .groups content, .groups content' => content == content'
  | .token content, .token content' => content.same content'
  | .tokens content, .tokens content' => sameTokens content content'
  | .custom content, .custom content' => content == content'
  | _, _ => false

/-- Two lists of tokens are as long and equal token by token. -/
def sameTokens : List (Token α) → List (Token α) → Bool
  | [], [] => true
  | token :: rest, token' :: rest' => token.same token' && sameTokens rest rest'
  | _, _ => false

end

instance : BEq (Token α) := ⟨Token.same⟩

instance : BEq (Value α) := ⟨Value.same⟩

end Equality

end TokenGrammar
