import TokenGrammar.Proofs.Arithmetic.Assignments
import TokenGrammar.Proofs.Arithmetic.Reassociation

/-! Chains that are appended to each other. It does not matter which of two chains is appended
first, and the chain that comes of it evaluates like its operands one after the other, from left
to right.
-/

namespace TokenGrammar.Arithmetic

variable {kind : String} {operator : Char} {environment : Environment}

-----------------------------------------------------------------------------------------
-- Appending
-----------------------------------------------------------------------------------------

/-- The links of a tree are put in front of others as they are. -/
theorem linksOnto_eq_append (tree : Tree) (rest : List Link)
    : linksOnto kind operator rest tree = links kind operator tree ++ rest := by
  rw [links_eq, linksOnto_eq]

/-- The operands in the links of a tree are whole, since none of them is an operation of the
kind.
-/
theorem linksOnto_of_mem_links {tree : Tree} {link : Link} (h : link ∈ links kind operator tree)
    (rest : List Link)
    : linksOnto kind link.1 rest link.2 = link :: rest := by
  rw [links_eq] at h
  have hterm : link.2 ∈ terms kind tree := (List.of_mem_zip h).2
  exact linksOnto_of_not_isOperation (not_isOperation_of_mem_terms tree link.2 hterm)

/-- A chain to which another one was appended has the links of both, since the appended operands
are whole.
-/
theorem links_leftNested (left right : Tree) (next : Char)
    : links kind operator (leftNested kind left next right)
      = links kind operator left ++ links kind next right := by
  calc
    links kind operator (leftNested kind left next right)
      = linksOnto kind operator (links kind next right ++ []) left :=
        linksOnto_foldl (fun left link => ⟨_, _, rfl⟩) fun _ => linksOnto_of_mem_links
    _ = links kind operator left ++ links kind next right := by
        rw [List.append_nil, linksOnto_eq_append]

/-- Appending chains is associative: a second and a third chain are appended to a first one with
the same tree in either order, down to the spans of all tokens in it. This does not depend on
the shapes of the chains, nor on where their operands end.
-/
theorem leftNested_assoc (kind : String) (first second third : Tree) (operator next : Char)
    : leftNested kind (leftNested kind first operator second) next third
      = leftNested kind first operator (leftNested kind second next third) := by
  calc
    leftNested kind (leftNested kind first operator second) next third
      = (links kind operator second ++ links kind next third).foldl (operation kind) first :=
        List.foldl_append.symm
    _ = leftNested kind first operator (leftNested kind second next third) := by
        rw [← links_leftNested]
        rfl

-----------------------------------------------------------------------------------------
-- Evaluation
-----------------------------------------------------------------------------------------

/-- Going on twice is going on with both together, by cases on the first result. -/
theorem Evaluation.andThen_assoc (evaluation : Evaluation)
    (next last : Float → Environment → Evaluation)
    : (evaluation.andThen next).andThen last
      = evaluation.andThen fun value later => (next value later).andThen last := by
  obtain ⟨error | value, later⟩ := evaluation <;> rfl

/-- Combines a value with the operands of links one after the other, for operations of this kind
that start at this index. Each operand is evaluated in the environment that the one in front of
it leaves, and the first error ends it all.
-/
def accumulate (kind : String) (index : Nat) : List Link → Float → Environment → Evaluation
  | [], total, environment => (.ok total, environment)
  | (operator, operand) :: rest, total, environment =>
      (evaluate operand environment).andThen fun value later =>
        match applyOperator (.named kind) index operand.index operator total value with
        | .ok total => accumulate kind index rest total later
        | .error error => (.error error, later)

/-- An operation evaluates its left operand and then its one link. -/
theorem evaluate_operation (left : Tree) (link : Link)
    : evaluate (operation kind left link) environment
      = (evaluate left environment).andThen (accumulate kind left.index [link]) := by
  rw [operation, evaluate_binary]
  congr 1
  funext total middle
  rw [accumulate]
  congr 1
  funext value later
  cases applyOperator (.named kind) left.index link.2.index link.1 total value <;> rfl

/-- The first link is combined before the others, by cases on whether its operator fails. -/
theorem accumulate_cons (index : Nat) (link : Link) (rest : List Link) (total : Float)
    : accumulate kind index (link :: rest) total environment
      = (accumulate kind index [link] total environment).andThen (accumulate kind index rest) := by
  rw [accumulate, accumulate, Evaluation.andThen_assoc]
  congr 1
  funext value later
  cases applyOperator (.named kind) index link.2.index link.1 total value <;> rfl

/-- Operations that are nested to the left evaluate like the first operand and then the others,
by induction on these: the operations above it all start where it does.
-/
theorem evaluate_foldl_operation (links : List Link) (first : Tree)
    : evaluate (links.foldl (operation kind) first) environment
      = (evaluate first environment).andThen (accumulate kind first.index links) := by
  induction links generalizing first with
  | nil =>
      rw [List.foldl_nil]
      obtain ⟨error | value, later⟩ := evaluate first environment <;> rfl
  | cons link links ih =>
      calc
        evaluate (links.foldl (operation kind) (operation kind first link)) environment
          = ((evaluate first environment).andThen (accumulate kind first.index [link])).andThen
              (accumulate kind first.index links) := by
            rw [ih, evaluate_operation]
            rfl
        _ = (evaluate first environment).andThen (accumulate kind first.index (link :: links)) := by
            rw [Evaluation.andThen_assoc]
            congr 1
            funext total later
            exact (accumulate_cons first.index link links total).symm

/-- The value of a chain is a left fold over its operands: first the operand in front is evaluated,
and then each other one in the environment that is left, to be combined with the value so far.
A divisor that is zero is an error at the operand, and an operator that is not known one of the
kind of the chain, where the chain starts.
-/
theorem evaluate_leftNested (kind : String) (left : Tree) (operator : Char) (right : Tree)
    (environment : Environment)
    : evaluate (leftNested kind left operator right) environment
        = (evaluate left environment).andThen
            (accumulate kind left.index
              ((operator :: operators kind right).zip (terms kind right)))
      ∧ ∀ (term : Tree) (sign : Char) (total value : Float) (error : EvaluationError),
          applyOperator (.named kind) left.index term.index sign total value = .error error
          ↔ (sign = '/' ∨ sign = '%') ∧ value == 0.0 ∧ error = .divisionByZero term.index
            ∨ sign ∉ knownOperators ∧ error = .unexpected (.named kind) left.index := by
  constructor
  · rw [leftNested, evaluate_foldl_operation, links_eq]
  · intro term sign total value error
    exact applyOperator_eq_error_iff

end TokenGrammar.Arithmetic
