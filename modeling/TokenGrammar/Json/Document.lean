import TokenGrammar.Binary64.Text
import TokenGrammar.Text.Align

/-! JSON documents and their two written forms, one on a single line without blanks and one with
a line for each item.
-/

namespace TokenGrammar.Json

/-- A JSON document. The members of an object keep their order. -/
inductive Document where
  | null
  | string (content : String)
  | integer (value : Int)
  | number (value : Float)
  | array (items : List Document)
  | object (members : List (String × Document))

/-- A hexadecimal digit. -/
def hexDigit (value : Nat) : Char :=
  Nat.digitChar value

/-- The written form of a character in a string. Quotes, backslashes and control characters are
escaped, the most common of them by a letter.
-/
def escaped (char : Char) : List Char :=
  match char with
  | '"' => ['\\', '"']
  | '\\' => ['\\', '\\']
  | '\x08' => ['\\', 'b']
  | '\x0c' => ['\\', 'f']
  | '\n' => ['\\', 'n']
  | '\r' => ['\\', 'r']
  | '\t' => ['\\', 't']
  | _ =>
      if char.toNat < 0x20 then
        ['\\', 'u', '0', '0', hexDigit (char.toNat / 16), hexDigit (char.toNat % 16)]
      else [char]

/-- The written form of a string, in quotes. -/
def quoted (content : String) : String :=
  "\"" ++ String.ofList (content.toList.flatMap escaped) ++ "\""

/-- The written form of a number. Without one, it is null. -/
def numberText (value : Float) : String :=
  (Binary64.dataText? value).getD "null"

/-- The texts one after the other, with a separator between them. -/
def joined (separator : String) : List String → String
  | [] => ""
  | [text] => text
  | text :: rest => text ++ separator ++ joined separator rest

mutual

/-- The document on one line, without blanks. -/
def Document.compact : Document → String
  | .null => "null"
  | .string content => quoted content
  | .integer value => toString value
  | .number value => numberText value
  | .array items => "[" ++ joined "," (compactItems items) ++ "]"
  | .object members => "\x7b" ++ joined "," (compactMembers members) ++ "\x7d"

/-- The items of an array, each on one line. -/
def compactItems : List Document → List String
  | [] => []
  | item :: rest => item.compact :: compactItems rest

/-- The members of an object, each on one line. -/
def compactMembers : List (String × Document) → List String
  | [] => []
  | (key, value) :: rest => (quoted key ++ ":" ++ value.compact) :: compactMembers rest

end

/-- A new line with so many levels of indentation, of two blanks each. -/
def newLine (level : Nat) : String :=
  "\n" ++ blanks (2 * level)

/-- Lines between brackets, indented one level deeper than the brackets. Without lines the
brackets stand together.
-/
def bracketed (left right : String) (level : Nat) (lines : List String) : String :=
  if lines.isEmpty then left ++ right
  else
    left ++ newLine (level + 1) ++ joined ("," ++ newLine (level + 1)) lines ++ newLine level
      ++ right

mutual

/-- The document with a line for each item, at so many levels of indentation. -/
def Document.indented (level : Nat) : Document → String
  | .null => "null"
  | .string content => quoted content
  | .integer value => toString value
  | .number value => numberText value
  | .array items => bracketed "[" "]" level (indentedItems (level + 1) items)
  | .object members => bracketed "\x7b" "\x7d" level (indentedMembers (level + 1) members)

/-- The items of an array. -/
def indentedItems (level : Nat) : List Document → List String
  | [] => []
  | item :: rest => item.indented level :: indentedItems level rest

/-- The members of an object. -/
def indentedMembers (level : Nat) : List (String × Document) → List String
  | [] => []
  | (key, value) :: rest =>
      (quoted key ++ ": " ++ value.indented level) :: indentedMembers level rest

end

/-- The document in one of its forms. -/
def Document.text (pretty : Bool) (document : Document) : String :=
  if pretty then document.indented 0 else document.compact

end TokenGrammar.Json
