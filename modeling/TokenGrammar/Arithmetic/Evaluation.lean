import TokenGrammar.Arithmetic.Basic
import TokenGrammar.Binary64.Remainder

/-! Evaluation of arithmetic expressions, whose assignments change an environment. -/

namespace TokenGrammar.Arithmetic

/-- The values of names, each name once, in the order of the names. -/
structure Environment where
  bindings : List (String × Float) := []

namespace Environment

/-- The value of a name. -/
def get? (environment : Environment) (name : String) : Option Float :=
  environment.bindings.lookup name

/-- Bindings in order, with one more that replaces an older one of the same name. -/
def insertSorted (name : String) (value : Float) : List (String × Float) → List (String × Float)
  | [] => [(name, value)]
  | (other, old) :: rest =>
      if name = other then (name, value) :: rest
      else if name < other then (name, value) :: (other, old) :: rest
      else (other, old) :: insertSorted name value rest

/-- Gives a name a value, whether or not it had one. -/
def bind (environment : Environment) (name : String) (value : Float) : Environment :=
  { bindings := insertSorted name value environment.bindings }

end Environment

/-- Why an expression has no value. -/
inductive EvaluationError where
  | unbound (name : String) (index : Nat)
  | divisionByZero (index : Nat)
  | unexpected (kind : Kind) (index : Nat)
  deriving DecidableEq, Repr

/-- The wording of the error. -/
def EvaluationError.message : EvaluationError → String
  | .unbound name index => "unbound variable `" ++ name ++ "` at " ++ toString index
  | .divisionByZero index => "division by zero at " ++ toString index
  | .unexpected kind index => "unexpected " ++ kind.label ++ " token at " ++ toString index

/-- A value or an error, and the environment that is left in either case. -/
abbrev Evaluation := Except EvaluationError Float × Environment

/-- Goes on with a value in the environment that is left. -/
def Evaluation.andThen (evaluation : Evaluation) (next : Float → Environment → Evaluation)
    : Evaluation :=
  match evaluation with
  | (.ok value, environment) => next value environment
  | (.error error, environment) => (.error error, environment)

/-- Applies an operator. The indices are those of the right operand and of the operation, the
kind is that of the operation; nothing is divided by zero.
-/
def applyOperator (kind : Kind) (index rightIndex : Nat) (operator : Char) (left right : Float)
    : Except EvaluationError Float :=
  match operator with
  | '+' => .ok (left + right)
  | '-' => .ok (left - right)
  | '*' => .ok (left * right)
  | '/' => if right == 0.0 then .error (.divisionByZero rightIndex) else .ok (left / right)
  | '%' =>
      if right == 0.0 then .error (.divisionByZero rightIndex)
      else .ok (Binary64.remainder left right)
  | _ => .error (.unexpected kind index)

mutual

/-- Evaluates an expression. -/
def evaluate : Tree → Environment → Evaluation
  | ⟨index, _, kind, value⟩, environment => evaluateValue kind index value environment

/-- Evaluates the value of a token of the given kind at the given index. A text is evaluated
only as an identifier, a token only as a parenthesis.
-/
def evaluateValue (kind : Kind) (index : Nat) : Value Node → Environment → Evaluation
  | .text name, environment =>
      if kind = .named "identifier" then
        match environment.get? name with
        | some value => (.ok value, environment)
        | none => (.error (.unbound name index), environment)
      else (.error (.unexpected kind index), environment)
  | .token inner, environment =>
      if kind = .named "paren" then evaluate inner environment
      else (.error (.unexpected kind index), environment)
  | .custom node, environment => evaluateNode kind index node environment
  | _, environment => (.error (.unexpected kind index), environment)

/-- Evaluates operands from left to right, and binds the name of an assignment to the value of
its right side.
-/
def evaluateNode (kind : Kind) (index : Nat) : Node → Environment → Evaluation
  | .number value, environment => (.ok value, environment)
  | .binary left operator right, environment =>
      (evaluate left environment).andThen fun first environment =>
        (evaluate right environment).andThen fun second environment =>
          (applyOperator kind index right.index operator first second, environment)
  | .assignment name right, environment =>
      (evaluate right environment).andThen fun value environment =>
        (.ok value, environment.bind name value)

end

end TokenGrammar.Arithmetic
