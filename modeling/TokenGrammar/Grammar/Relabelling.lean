import TokenGrammar.Grammar.Basic

/-! Actions that relabel tokens, for grammars whose own data are 64-bit integers. -/

namespace TokenGrammar

/-- The value of decimal digits, of which there is at least one. -/
def decimalDigits? (chars : List Char) : Option Nat :=
  if chars.isEmpty || !chars.all Char.isDigit then none
  else
    some (chars.foldl (fun value digit => value * 10 + (digit.toNat - '0'.toNat)) 0)

/-- Reads a decimal integer with an optional sign. -/
def integer? : List Char → Option Int
  | '-' :: digits => (decimalDigits? digits).map fun value => -(value : Int)
  | '+' :: digits => (decimalDigits? digits).map fun value => (value : Int)
  | digits => (decimalDigits? digits).map fun value => (value : Int)

/-- Reads a decimal integer that fits into 64 bits. -/
def int64? (chars : List Char) : Option Int64 :=
  (integer? chars).bind fun value =>
    if Int64.minValue.toInt ≤ value ∧ value ≤ Int64.maxValue.toInt then some (Int64.ofInt value)
    else none

/-- The text that a value stands for: of a text itself, of groups the whole match, of all
others none.
-/
def Value.fullText {α : Type} : Value α → String
  | .text content => content
  | .groups content => content.full?.getD ""
  | _ => ""

/-- The text that a value captures: of groups that of group 1, or if that took no part the whole
match, of all other values none.
-/
def Value.capturedText {α : Type} : Value α → String
  | .groups content => ((content.get? 1).or content.full?).getD ""
  | _ => ""

/-- The ways to compute the new value of a token from the token. -/
inductive Projection where
  | none
  | keep
  | wrap
  | full
  | capture
  | first
  | count
  | size
  | integer
  deriving DecidableEq, Repr

/-- The new value of a token. -/
def Projection.apply : Projection → Token Int64 → Value Int64
  | .none, _ => .none
  | .keep, token => token.value
  | .wrap, token => .token token
  | .full, token => .text token.value.fullText
  | .capture, token => .text token.value.capturedText
  | .first, token =>
      match token.value with
      | .tokens (item :: _) => .token item
      | _ => .none
  | .count, token => .custom (Int64.ofNat (token.value.tokens?.getD []).length)
  | .size, token => .custom (Int64.ofNat token.size)
  | .integer, token =>
      ((int64? token.value.fullText.toList).map Value.custom).getD .none

/-- A change of a token that keeps its span: it gets a new label and value or only one of them,
or becomes a token to ignore, or stays the same.
-/
inductive Relabelling where
  | produce (name : String) (projection : Projection)
  | label (name : String)
  | ignore
  | same
  deriving DecidableEq, Repr

/-- The changed token. -/
def Relabelling.apply : Relabelling → Token Int64 → Token Int64
  | .produce name projection, token => token.relabel (.named name) (projection.apply token)
  | .label name, token => token.relabel (.named name) token.value
  | .ignore, token => token.ignore
  | .same, token => token

/-- The language of named rules, of which the first one of a name counts, with relabellings as
actions.
-/
def Language.ofRules (rules : List (String × Grammar String Relabelling))
    : Language String Relabelling Int64 :=
  { names := rules.map (·.1)
    definition := fun name => rules.lookup name
    perform := fun relabelling token => .ok (relabelling.apply token) }

end TokenGrammar
