import TokenGrammar.Arithmetic.Evaluation
import TokenGrammar.Arithmetic.Grammar

/-! Sessions: bindings given as texts and expressions, one after the other in one environment. -/

namespace TokenGrammar.Arithmetic

/-- Why a text is no binding: there is no sign of equality, or no number after it. -/
inductive BindingError where
  | noEquals (text : String)
  | invalidValue (name : String) (error : Binary64.ReadError)
  deriving DecidableEq, Repr

/-- The wording of the error. -/
def BindingError.message : BindingError → String
  | .noEquals text => "expected NAME=VALUE, found `" ++ text ++ "`"
  | .invalidValue name error => "invalid value for `" ++ name ++ "`: " ++ error.message

/-- The text without the white space around it. -/
def trim (chars : List Char) : List Char :=
  ((chars.dropWhile Unicode.isSpace).reverse.dropWhile Unicode.isSpace).reverse

/-- Reads a name and its value on the two sides of the first sign of equality. -/
def readBinding (text : String) : Except BindingError (String × Float) :=
  match text.toList.span (· != '=') with
  | (_, []) => .error (.noEquals text)
  | (name, _ :: value) =>
      match Binary64.read (String.ofList (trim value)) with
      | .ok number => .ok (String.ofList (trim name), number)
      | .error error => .error (.invalidValue (String.ofList name) error)

/-- A text that binds a name, or an expression to evaluate. -/
inductive Step where
  | binding (text : String)
  | expression (text : String)
  deriving DecidableEq, Repr

/-- What a step comes to. -/
inductive StepResult where
  | bound
  | invalidBinding (error : BindingError)
  | value (value : Float)
  | evaluationError (error : EvaluationError)
  | parseError (error : ParseError)
  | unresolved

/-- Takes one step. What fails to be read leaves the environment as it was. -/
def Step.run : Step → Environment → StepResult × Environment
  | .binding text, environment =>
      match readBinding text with
      | .ok (name, value) => (.bound, environment.bind name value)
      | .error error => (.invalidBinding error, environment)
  | .expression text, environment =>
      match (parse (.ofString text)).outcome with
      | .matched tree =>
          match evaluate tree environment with
          | (.ok value, environment) => (.value value, environment)
          | (.error error, environment) => (.evaluationError error, environment)
      | .failed error => (.parseError error, environment)
      | .unresolved => (.unresolved, environment)

/-- Takes all steps, and shows the environment after each of them. -/
def runSession : Environment → List Step → List (StepResult × Environment)
  | _, [] => []
  | environment, step :: rest =>
      let (result, environment) := step.run environment
      (result, environment) :: runSession environment rest

end TokenGrammar.Arithmetic
