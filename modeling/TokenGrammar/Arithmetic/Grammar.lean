import TokenGrammar.Arithmetic.Chain
import TokenGrammar.Binary64.Reader
import TokenGrammar.Grammar.Basic
import TokenGrammar.Regex.Pattern

/-! The language of arithmetic expressions. A sum consists of products, a product of atoms, and an
assignment stands at the start of an expression. Operators take blanks around them.
-/

namespace TokenGrammar.Arithmetic

open Regex (CharSet)

-----------------------------------------------------------------------------------------
-- Patterns
-----------------------------------------------------------------------------------------

/-- Any amount of white space. -/
def blank : Regex :=
  .zeroOrMore (.oneOf .space)

/-- Digits, perhaps with a point and more digits. -/
def numberPattern : Pattern :=
  Regex.pattern
    (.sequence
      [.oneOrMore (.oneOf .digit),
        .zeroOrOne (.capture 1 none (.sequence [.literal '.', .oneOrMore (.oneOf .digit)]))])
    "\\d+(\\.\\d+)?"

/-- A letter or an underscore, then letters, underscores and digits. -/
def namePattern : Pattern :=
  Regex.pattern
    (.sequence
      [.oneOf (.folded (.union (.range 'a' 'z') (.single '_'))),
        .zeroOrMore
          (.oneOf
            (.folded
              (.union (.union (.range 'a' 'z') (.single '_')) (.range '0' '9'))))])
    "(?i)[a-z_][a-z_0-9]*"

/-- A captured sign with white space around it. -/
def signPattern (written : String) (signs : CharSet) : Pattern :=
  Regex.pattern (.sequence [blank, .capture 1 none (.oneOf signs), blank]) written

/-- The operators of sums. -/
def sumPattern : Pattern :=
  signPattern "\\s*([-+])\\s*" (.union (.single '-') (.single '+'))

/-- The operators of products. -/
def productPattern : Pattern :=
  signPattern "\\s*([*/%])\\s*" (.union (.union (.single '*') (.single '/')) (.single '%'))

/-- A single character with white space around it. -/
def markPattern (written : String) (mark : Char) : Pattern :=
  Regex.pattern (.sequence [blank, .literal mark, blank]) written

/-- The sign of an assignment. -/
def equalsPattern : Pattern :=
  markPattern "\\s*=\\s*" '='

/-- An opening parenthesis. -/
def openPattern : Pattern :=
  markPattern "\\s*\\(\\s*" '('

/-- A closing parenthesis. -/
def closePattern : Pattern :=
  markPattern "\\s*\\)\\s*" ')'

-----------------------------------------------------------------------------------------
-- Actions
-----------------------------------------------------------------------------------------

/-- What becomes of the tokens of some rules. -/
inductive Action where
  | number
  | identifier
  | paren
  | binary (kind : String)
  | assignment
  deriving DecidableEq, Repr

/-- The text of the whole match of a pattern. -/
def matchedText (token : Tree) : String :=
  ((token.value.groups?.bind Groups.full?)).getD ""

/-- The operator that a pattern captured. -/
def capturedOperator? (token : Tree) : Option Char := do
  let groups ← token.value.groups?
  let sign ← groups.get? 1
  sign.toList.head?

/-- The error for a token that is not what the grammar of its rule yields. -/
def malformed (kind : String) (token : Tree) : Except ParseError Tree :=
  .error (.custom ("malformed " ++ kind) token.index)

/-- The token of a rule, made from the token of its grammar. -/
def Action.perform : Action → Tree → Except ParseError Tree
  | .number, token =>
      match Binary64.read (matchedText token) with
      | .ok value => .ok (token.relabel (.named "number") (.custom (.number value)))
      | .error error => .error (.custom ("invalid number: " ++ error.message) token.index)
  | .identifier, token => .ok (token.relabel (.named "identifier") (.text (matchedText token)))
  | .paren, token =>
      let inner :=
        match token.value with
        | .tokens (inner :: _) => .token inner
        | _ => .none
      .ok (token.relabel (.named "paren") inner)
  | .binary kind, token =>
      match token.value with
      | .tokens (left :: sign :: right :: _) =>
          match capturedOperator? sign with
          | some operator => .ok (leftNested kind left operator right)
          | none => malformed kind token
      | _ => malformed kind token
  | .assignment, token =>
      match token.value with
      | .tokens (target :: right :: _) =>
          let name := target.value.text?.getD ""
          .ok (token.relabel (.named "assignment") (.custom (.assignment name right)))
      | _ => malformed "assignment" token

-----------------------------------------------------------------------------------------
-- Rules
-----------------------------------------------------------------------------------------

/-- The names of the rules. -/
inductive Rule where
  | number
  | identifier
  | paren
  | atom
  | product
  | sum
  | assignment
  | factor
  | expression
  deriving DecidableEq, Repr

/-- All rules. -/
def Rule.all : List Rule :=
  [.number, .identifier, .paren, .atom, .product, .sum, .assignment, .factor, .expression]

/-- The grammar of a rule. Chains of operators are read nested to the right; their action nests
them to the left.
-/
def Rule.grammar : Rule → Grammar Rule Action
  | .number => .act .number (.pattern numberPattern)
  | .identifier => .act .identifier (.pattern namePattern)
  | .paren =>
      .act .paren
        (.sequence
          [.ignored (.pattern openPattern), .rule .expression, .ignored (.pattern closePattern)]
          none)
  | .atom => .choice [.rule .number, .rule .identifier, .rule .paren]
  | .product =>
      .act (.binary "mul")
        (.sequence
          [.rule .atom, .pattern productPattern, .choice [.rule .product, .rule .atom]] none)
  | .sum =>
      .act (.binary "add")
        (.sequence
          [.choice [.rule .product, .rule .atom], .pattern sumPattern,
            .choice [.rule .sum, .rule .product, .rule .atom]]
          none)
  | .assignment =>
      .act .assignment
        (.sequence
          [.rule .identifier, .ignored (.pattern equalsPattern), .rule .expression] none)
  | .factor => .choice [.rule .assignment, .rule .atom]
  | .expression => .choice [.rule .sum, .rule .product, .rule .factor]

/-- The language of arithmetic expressions. -/
def language : Language Rule Action Node :=
  { names := Rule.all
    definition := fun rule => some rule.grammar
    perform := Action.perform }

/-- The parser of a rule. -/
def Rule.parser (rule : Rule) : Parser Node :=
  language.parser (.rule rule)

-----------------------------------------------------------------------------------------
-- Whole texts
-----------------------------------------------------------------------------------------

/-- Reads an expression with nothing but white space around it. -/
def parse (source : Source) : Reply Tree :=
  let start := byteLength (source.chars.takeWhile Unicode.isSpace)
  (Rule.expression.parser source start).bind fun tree =>
    if source.isBlankFrom tree.stop then .matched tree
    else .failed (.custom "unexpected input after expression" tree.stop)

end TokenGrammar.Arithmetic
