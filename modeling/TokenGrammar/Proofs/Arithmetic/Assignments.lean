import TokenGrammar.Arithmetic.Evaluation

/-! The assignments that an evaluation carries out. Each token is visited behind its operands, so
that the assignments in front of a token that fails are those whose bindings stay.
-/

namespace TokenGrammar.Arithmetic

-----------------------------------------------------------------------------------------
-- Environments
-----------------------------------------------------------------------------------------

namespace Environment

variable {environment : Environment} {name other : String} {value : Float}
  {bindings : List (String × Float)}

theorem lookup_cons (bindings : List (String × Float))
    : ((name, value) :: bindings).lookup other
      = if other = name then some value else bindings.lookup other := by
  rw [List.lookup_cons]
  by_cases hother : other = name
  · simp [hother]
  · simp [beq_false_of_ne hother, hother]

/-- A binding that is put in its place hides no other name, by induction on the bindings. -/
theorem lookup_insertSorted (bindings : List (String × Float))
    : (insertSorted name value bindings).lookup other
      = if other = name then some value else bindings.lookup other := by
  induction bindings with
  | nil => exact lookup_cons []
  | cons binding rest ih =>
      obtain ⟨first, old⟩ := binding
      rw [insertSorted]
      by_cases hfirst : name = first
      · subst hfirst
        rw [if_pos rfl, lookup_cons, lookup_cons]
        by_cases hother : other = name <;> simp [hother]
      · rw [if_neg hfirst]
        split
        case isTrue => exact lookup_cons _
        case isFalse =>
          rw [lookup_cons, lookup_cons, ih]
          by_cases hother : other = name
          · rw [if_pos hother, if_neg (hother ▸ hfirst), if_pos hother]
          · simp [hother]

theorem get?_bind (environment : Environment) (name other : String) (value : Float)
    : (environment.bind name value).get? other
      = if other = name then some value else environment.get? other :=
  lookup_insertSorted environment.bindings

/-- Binds names to values, one after the other. -/
def bindAll (environment : Environment) (bindings : List (String × Float)) : Environment :=
  bindings.foldl (fun environment binding => environment.bind binding.1 binding.2) environment

/-- Bindings are made one after the other, so further ones are made on top of them. -/
theorem bindAll_append (later : List (String × Float))
    : environment.bindAll (bindings ++ later) = (environment.bindAll bindings).bindAll later :=
  List.foldl_append ..

/-- Names that are not bound anew keep their values, by induction on the bindings. -/
theorem get?_bindAll_of_not_mem (h : name ∉ bindings.map Prod.fst)
    : (environment.bindAll bindings).get? name = environment.get? name := by
  induction bindings generalizing environment with
  | nil => rfl
  | cons binding rest ih =>
      have hfirst : name ≠ binding.1 := List.ne_of_not_mem_cons h
      have hrest : name ∉ rest.map Prod.fst := List.not_mem_of_not_mem_cons h
      calc
        ((environment.bind binding.1 binding.2).bindAll rest).get? name
          = (environment.bind binding.1 binding.2).get? name := ih hrest
        _ = environment.get? name := by rw [get?_bind, if_neg hfirst]

theorem isSome_get?_bind (h : (environment.get? name).isSome)
    : ((environment.bind other value).get? name).isSome := by
  rw [get?_bind]
  split
  · rfl
  · exact h

/-- What is bound stays bound, by induction on the further bindings. -/
theorem isSome_get?_bindAll (h : (environment.get? name).isSome)
    : ((environment.bindAll bindings).get? name).isSome := by
  induction bindings generalizing environment with
  | nil => exact h
  | cons binding rest ih => exact ih (isSome_get?_bind h)

end Environment

-----------------------------------------------------------------------------------------
-- Tokens in the order of evaluation
-----------------------------------------------------------------------------------------

mutual

/-- The tokens to which the evaluation of a tree comes, in the order in which their own evaluation
ends: each behind its operands, and these from left to right.
-/
def evaluationOrder : Tree → List Tree
  | ⟨index, size, kind, value⟩ => operandOrder kind value ++ [⟨index, size, kind, value⟩]

/-- The order in the operands of a token of the given kind with the given value. Only a
parenthesis is looked into.
-/
def operandOrder (kind : Kind) : Value Node → List Tree
  | .token inner => if kind = .named "paren" then evaluationOrder inner else []
  | .custom node => nodeOrder node
  | _ => []

/-- The order in the operands of an operation or an assignment. -/
def nodeOrder : Node → List Tree
  | .number _ => []
  | .binary left _ right => evaluationOrder left ++ evaluationOrder right
  | .assignment _ right => evaluationOrder right

end

section Equations

variable {index size : Nat} {kind : Kind} {inner left right : Tree} {environment : Environment}

theorem evaluationOrder_paren
    : evaluationOrder ⟨index, size, .named "paren", .token inner⟩
      = evaluationOrder inner ++ [⟨index, size, .named "paren", .token inner⟩] := by
  rw [evaluationOrder, operandOrder, if_pos rfl]

theorem evaluationOrder_token (h : kind ≠ .named "paren")
    : evaluationOrder ⟨index, size, kind, .token inner⟩
      = [⟨index, size, kind, .token inner⟩] := by
  rw [evaluationOrder, operandOrder, if_neg h]
  rfl

theorem evaluationOrder_binary {operator : Char}
    : evaluationOrder ⟨index, size, kind, .custom (.binary left operator right)⟩
      = evaluationOrder left
        ++ (evaluationOrder right
          ++ [⟨index, size, kind, .custom (.binary left operator right)⟩]) := by
  rw [evaluationOrder, operandOrder, nodeOrder, List.append_assoc]

theorem evaluationOrder_assignment {name : String}
    : evaluationOrder ⟨index, size, kind, .custom (.assignment name right)⟩
      = evaluationOrder right ++ [⟨index, size, kind, .custom (.assignment name right)⟩] := by
  rw [evaluationOrder, operandOrder, nodeOrder]

theorem evaluate_paren
    : evaluate ⟨index, size, .named "paren", .token inner⟩ environment
      = evaluate inner environment := by
  rw [evaluate, evaluateValue, if_pos rfl]

theorem evaluate_token (h : kind ≠ .named "paren")
    : evaluate ⟨index, size, kind, .token inner⟩ environment
      = (.error (.unexpected kind index), environment) := by
  rw [evaluate, evaluateValue, if_neg h]

/-- An operation evaluates its left operand, then its right one, and applies its operator to
both values.
-/
theorem evaluate_binary {operator : Char}
    : evaluate ⟨index, size, kind, .custom (.binary left operator right)⟩ environment
      = (evaluate left environment).andThen fun first middle =>
          (evaluate right middle).andThen fun second later =>
            (applyOperator kind index right.index operator first second, later) := by
  rw [evaluate, evaluateValue, evaluateNode]

theorem evaluate_assignment {name : String}
    : evaluate ⟨index, size, kind, .custom (.assignment name right)⟩ environment
      = (evaluate right environment).andThen fun value later =>
          (.ok value, later.bind name value) := by
  rw [evaluate, evaluateValue, evaluateNode]

/-- An assignment whose right side fails leaves what its right side leaves, since it binds
nothing then.
-/
theorem evaluate_assignment_of_error {name : String} {error : EvaluationError}
    {later : Environment} (h : evaluate right environment = (.error error, later))
    : evaluate ⟨index, size, kind, .custom (.assignment name right)⟩ environment
      = (.error error, later) := by
  rw [evaluate_assignment, h]
  rfl

end Equations

/-- The operators of arithmetic. -/
def knownOperators : List Char :=
  ['+', '-', '*', '/', '%']

/-- An operator fails for one of two reasons: the right operand of a division is zero, which is
the error of this operand, or the operator is not known, which is that of the operation.
-/
theorem applyOperator_eq_error_iff {kind : Kind} {index rightIndex : Nat} {operator : Char}
    {left right : Float} {error : EvaluationError}
    : applyOperator kind index rightIndex operator left right = .error error
      ↔ (operator = '/' ∨ operator = '%') ∧ right == 0.0 ∧ error = .divisionByZero rightIndex
        ∨ operator ∉ knownOperators ∧ error = .unexpected kind index := by
  have hdivision (result : Float)
      : (if right == 0.0 then .error (.divisionByZero rightIndex) else .ok result)
          = (.error error : Except EvaluationError Float)
        ↔ right == 0.0 ∧ error = .divisionByZero rightIndex := by
    split
    case isTrue h => simp [h, @eq_comm _ error]
    case isFalse h => simp [h]
  unfold applyOperator
  split
  case h_4 => simpa [knownOperators] using hdivision _
  case h_5 => simpa [knownOperators] using hdivision _
  case h_6 hplus hminus htimes hover hmodulo =>
    have hunknown : operator ∉ knownOperators := by
      simpa [knownOperators] using ⟨hplus, hminus, htimes, hover, hmodulo⟩
    have hdivides : ¬ (operator = '/' ∨ operator = '%') := not_or.mpr ⟨hover, hmodulo⟩
    simp [hunknown, hdivides, @eq_comm _ error]
  all_goals simp [knownOperators]

mutual

/-- All assignments in a tree, at any depth: each by its name and its right side, behind those in
its right side.
-/
def assignments : Tree → List (String × Tree)
  | ⟨_, _, _, value⟩ => valueAssignments value

/-- All assignments in a value. -/
def valueAssignments : Value Node → List (String × Tree)
  | .token inner => assignments inner
  | .tokens items => allAssignments items
  | .custom node => nodeAssignments node
  | _ => []

/-- All assignments in several trees. -/
def allAssignments : List Tree → List (String × Tree)
  | [] => []
  | tree :: rest => assignments tree ++ allAssignments rest

/-- All assignments in an operation or an assignment. -/
def nodeAssignments : Node → List (String × Tree)
  | .number _ => []
  | .binary left _ right => assignments left ++ assignments right
  | .assignment name right => assignments right ++ [(name, right)]

end

/-- The names to which a tree assigns. -/
def targets (tree : Tree) : List String :=
  (assignments tree).map Prod.fst

/-- The name and the right side of a token that is an assignment itself. -/
def assignment? : Tree → Option (String × Tree)
  | ⟨_, _, _, .custom (.assignment name right)⟩ => some (name, right)
  | _ => none

-----------------------------------------------------------------------------------------
-- Visits
-----------------------------------------------------------------------------------------

/-- A token and the value that its evaluation came to. -/
structure Visit where
  tree : Tree
  value : Float

/-- The binding that comes of a visit: a name is bound to the value of an assignment. -/
def Visit.binding? (visit : Visit) : Option (String × Float) :=
  (assignment? visit.tree).map fun assignment => (assignment.1, visit.value)

/-- The environment after some visits: each assignment among them has bound its name, in their
order, and nothing else is different.
-/
def Environment.after (start : Environment) (visits : List Visit) : Environment :=
  start.bindAll (visits.filterMap Visit.binding?)

theorem Environment.after_append (start : Environment) (visits later : List Visit)
    : start.after (visits ++ later) = (start.after visits).after later := by
  rw [Environment.after, List.filterMap_append, Environment.bindAll_append]
  rfl

/-- What is no assignment binds nothing, since it adds no binding to those of the visits. -/
theorem Environment.after_other {tree : Tree} (h : assignment? tree = none) (start : Environment)
    (visits : List Visit) (value : Float)
    : start.after (visits ++ [⟨tree, value⟩]) = start.after visits := by
  simp [after, Visit.binding?, h]

theorem Environment.after_assignment {tree right : Tree} {name : String}
    (h : assignment? tree = some (name, right)) (start : Environment) (visits : List Visit)
    (value : Float)
    : start.after (visits ++ [⟨tree, value⟩]) = (start.after visits).bind name value := by
  rw [after_append]
  simp [after, bindAll, Visit.binding?, h]

/-- Tokens were visited one after the other, each behind its operands. The value of an assignment
is the one to which its right side evaluated, in the environment that was left to it; any other
token evaluated to its value there itself.
-/
inductive Visited (start : Environment) : List Visit → Prop where
  | nil : Visited start []
  | assignment {before inner : List Visit} {index size : Nat} {kind : Kind} {name : String}
      {right : Tree} {value : Float}
      (earlier : Visited start (before ++ inner))
      (order : evaluationOrder right = inner.map Visit.tree)
      (evaluates
        : evaluate right (start.after before) = (.ok value, start.after (before ++ inner)))
      : Visited start
          (before ++ inner ++ [⟨⟨index, size, kind, .custom (.assignment name right)⟩, value⟩])
  | other {before inner : List Visit} {tree : Tree} {value : Float}
      (earlier : Visited start (before ++ inner))
      (order : evaluationOrder tree = inner.map Visit.tree ++ [tree])
      (isOther : assignment? tree = none)
      (evaluates
        : evaluate tree (start.after before) = (.ok value, start.after (before ++ inner)))
      : Visited start (before ++ inner ++ [⟨tree, value⟩])

/-- Further tokens may be visited from the environment that is left, by induction on these
visits.
-/
theorem Visited.append {start : Environment} {visits later : List Visit}
    (h : Visited start visits) (hlater : Visited (start.after visits) later)
    : Visited start (visits ++ later) := by
  induction hlater with
  | nil =>
      rw [List.append_nil]
      exact h
  | assignment _ order evaluates ih =>
      rw [← List.append_assoc] at ih
      rw [← Environment.after_append, ← Environment.after_append, ← List.append_assoc]
        at evaluates
      rw [← List.append_assoc, ← List.append_assoc]
      exact .assignment ih order evaluates
  | other _ order isOther evaluates ih =>
      rw [← List.append_assoc] at ih
      rw [← Environment.after_append, ← Environment.after_append, ← List.append_assoc]
        at evaluates
      rw [← List.append_assoc, ← List.append_assoc]
      exact .other ih order isOther evaluates

-----------------------------------------------------------------------------------------
-- Effects
-----------------------------------------------------------------------------------------

/-- What an evaluation comes to and which environment it leaves. With a value, all tokens were
visited. With an error, the tokens in front of the first one that failed were, its own operands
among them.
-/
inductive Effects (start : Environment) (tree : Tree) : Evaluation → Prop where
  | value {visits : List Visit} {value : Float}
      (order : evaluationOrder tree = visits.map Visit.tree)
      (visited : Visited start visits)
      : Effects start tree (.ok value, start.after visits)
  | error {before inner : List Visit} {failing : Tree} {rest : List Tree}
      {error : EvaluationError}
      (order : evaluationOrder tree = (before ++ inner).map Visit.tree ++ failing :: rest)
      (visited : Visited start (before ++ inner))
      (operands : evaluationOrder failing = inner.map Visit.tree ++ [failing])
      (fails
        : evaluate failing (start.after before) = (.error error, start.after (before ++ inner)))
      : Effects start tree (.error error, start.after (before ++ inner))

variable {start : Environment} {tree operand : Tree} {visits : List Visit}

/-- The evaluation of a token ends where that of an operand fails, behind the operands in front
of it.
-/
theorem Effects.error_of_operand {rest : List Tree} {error : EvaluationError}
    {later : Environment} (visited : Visited start visits)
    (order
      : evaluationOrder tree = visits.map Visit.tree ++ (evaluationOrder operand ++ rest))
    (h : Effects (start.after visits) operand (.error error, later))
    : Effects start tree (.error error, later) := by
  cases h with
  | @error before inner failing behind _ order' visited' operands fails =>
      rw [← Environment.after_append, ← Environment.after_append, ← List.append_assoc] at fails
      rw [← Environment.after_append, ← List.append_assoc]
      have horder
          : evaluationOrder tree
            = (visits ++ before ++ inner).map Visit.tree ++ failing :: (behind ++ rest) := by
        simp [order, order']
      have hvisited : Visited start (visits ++ before ++ inner) := by
        rw [List.append_assoc]
        exact visited.append visited'
      exact .error horder hvisited operands fails

/-- What is no assignment leaves the environment that its operands leave, by cases on whether it
has a value.
-/
theorem Effects.of_evaluate {result : Except EvaluationError Float}
    (visited : Visited start visits)
    (order : evaluationOrder tree = visits.map Visit.tree ++ [tree])
    (isOther : assignment? tree = none)
    (h : evaluate tree start = (result, start.after visits))
    : Effects start tree (result, start.after visits) := by
  cases result with
  | error error => exact @Effects.error start tree [] visits tree [] error order visited order h
  | ok value =>
      rw [← start.after_other isOther visits value]
      have hvisited : Visited start (visits ++ [⟨tree, value⟩]) :=
        @Visited.other start [] visits tree value visited order isOther h
      refine .value ?_ hvisited
      rw [order, List.map_append]
      rfl

/-- A token without operands leaves the environment as it was, since nothing is visited in front
of it.
-/
theorem Effects.of_isLeaf {result : Except EvaluationError Float}
    (order : evaluationOrder tree = [tree]) (isOther : assignment? tree = none)
    (h : evaluate tree start = (result, start))
    : Effects start tree (evaluate tree start) := by
  rw [h]
  exact .of_evaluate .nil order isOther h

section Constructors

variable {index size : Nat} {kind : Kind} {left right inner : Tree}

/-- A parenthesis has the effects of the token in it, by cases on whether that has a value. -/
theorem Effects.paren (hinner : Effects start inner (evaluate inner start))
    : Effects start ⟨index, size, .named "paren", .token inner⟩
        (evaluate ⟨index, size, .named "paren", .token inner⟩ start) := by
  rw [evaluate_paren]
  rcases hresult : evaluate inner start with ⟨error | value, later⟩ <;> rw [hresult] at hinner
  · exact .error_of_operand .nil evaluationOrder_paren hinner
  · cases hinner with
    | value order visited =>
        exact .of_evaluate visited (order ▸ evaluationOrder_paren) rfl
          (evaluate_paren.trans hresult)

/-- An operation has the effects of its left operand and, if that has a value, those of its right
operand after them.
-/
theorem Effects.binary {operator : Char} (hleft : Effects start left (evaluate left start))
    (hright : ∀ start, Effects start right (evaluate right start))
    : Effects start ⟨index, size, kind, .custom (.binary left operator right)⟩
        (evaluate ⟨index, size, kind, .custom (.binary left operator right)⟩ start) := by
  generalize hwhole
      : (⟨index, size, kind, .custom (.binary left operator right)⟩ : Tree) = whole
  have horder
      : evaluationOrder whole = evaluationOrder left ++ (evaluationOrder right ++ [whole]) := by
    rw [← hwhole]
    exact evaluationOrder_binary
  have hother : assignment? whole = none := by
    rw [← hwhole]
    rfl
  have hevaluate
      : evaluate whole start
        = (evaluate left start).andThen fun first middle =>
            (evaluate right middle).andThen fun second later =>
              (applyOperator kind index right.index operator first second, later) := by
    rw [← hwhole]
    exact evaluate_binary
  rcases hfirst : evaluate left start with ⟨error | first, middle⟩ <;>
    rw [hfirst] at hleft hevaluate
  · rw [hevaluate]
    exact .error_of_operand .nil horder hleft
  · cases hleft with
    | @value visits _ order visited =>
        have hrest := hright (start.after visits)
        rw [order] at horder
        rcases hsecond : evaluate right (start.after visits) with ⟨error | second, later⟩ <;>
          rw [hsecond] at hrest
        · rw [hevaluate, Evaluation.andThen, hsecond]
          exact .error_of_operand visited horder hrest
        · cases hrest with
          | @value rightVisits _ rightOrder rightVisited =>
              have hresult
                  : evaluate whole start
                    = (applyOperator kind index right.index operator first second,
                        start.after (visits ++ rightVisits)) := by
                rw [hevaluate, Evaluation.andThen, hsecond, Environment.after_append]
                rfl
              rw [hresult]
              refine .of_evaluate (visited.append rightVisited) ?_ hother hresult
              rw [horder, rightOrder, List.map_append, List.append_assoc]

/-- An assignment has the effects of its right side and, if that has a value, binds its name to it
behind them.
-/
theorem Effects.assignment {name : String} (hright : Effects start right (evaluate right start))
    : Effects start ⟨index, size, kind, .custom (.assignment name right)⟩
        (evaluate ⟨index, size, kind, .custom (.assignment name right)⟩ start) := by
  generalize hwhole : (⟨index, size, kind, .custom (.assignment name right)⟩ : Tree) = whole
  have horder : evaluationOrder whole = evaluationOrder right ++ [whole] := by
    rw [← hwhole]
    exact evaluationOrder_assignment
  have hevaluate
      : evaluate whole start
        = (evaluate right start).andThen fun value later =>
            (.ok value, later.bind name value) := by
    rw [← hwhole]
    exact evaluate_assignment
  rcases hresult : evaluate right start with ⟨error | value, later⟩ <;>
    rw [hresult] at hright <;> rw [hevaluate, hresult]
  · exact .error_of_operand .nil horder hright
  · cases hright with
    | @value visits _ order visited =>
        have hassignment : assignment? whole = some (name, right) := by
          rw [← hwhole]
          rfl
        rw [Evaluation.andThen, ← start.after_assignment hassignment]
        have hvisited : Visited start (visits ++ [⟨whole, value⟩]) := by
          rw [← hwhole]
          exact @Visited.assignment start [] visits index size kind name right value visited
            order hresult
        refine .value ?_ hvisited
        rw [horder, order, List.map_append]
        rfl

end Constructors

/-- An evaluation has the effects of the tokens to which it comes, by recursion on the tree. -/
theorem evaluate_effects
    : (tree : Tree) → (start : Environment) → Effects start tree (evaluate tree start)
  | ⟨index, size, kind, .none⟩, start => .of_isLeaf rfl rfl rfl
  | ⟨index, size, kind, .groups groups⟩, start => .of_isLeaf rfl rfl rfl
  | ⟨index, size, kind, .tokens items⟩, start => .of_isLeaf rfl rfl rfl
  | ⟨index, size, kind, .custom (.number value)⟩, start => .of_isLeaf rfl rfl rfl
  | ⟨index, size, kind, .text name⟩, start => by
      by_cases hkind : kind = .named "identifier"
      · cases hget : start.get? name with
        | none =>
            have hevaluate
                : evaluate ⟨index, size, kind, .text name⟩ start
                  = (.error (.unbound name index), start) := by
              rw [evaluate, evaluateValue, if_pos hkind, hget]
            exact .of_isLeaf rfl rfl hevaluate
        | some value =>
            have hevaluate
                : evaluate ⟨index, size, kind, .text name⟩ start = (.ok value, start) := by
              rw [evaluate, evaluateValue, if_pos hkind, hget]
            exact .of_isLeaf rfl rfl hevaluate
      · have hevaluate
            : evaluate ⟨index, size, kind, .text name⟩ start
              = (.error (.unexpected kind index), start) := by
          rw [evaluate, evaluateValue, if_neg hkind]
        exact .of_isLeaf rfl rfl hevaluate
  | ⟨index, size, kind, .token inner⟩, start => by
      by_cases hkind : kind = .named "paren"
      · subst hkind
        exact .paren (evaluate_effects inner start)
      · exact .of_isLeaf (evaluationOrder_token hkind) rfl (evaluate_token hkind)
  | ⟨index, size, kind, .custom (.binary left operator right)⟩, start =>
      .binary (evaluate_effects left start) (evaluate_effects right)
  | ⟨index, size, kind, .custom (.assignment name right)⟩, start =>
      .assignment (evaluate_effects right start)
termination_by tree => sizeOf tree

-----------------------------------------------------------------------------------------
-- Assignments that are carried out
-----------------------------------------------------------------------------------------

/-- The assignments to which the evaluation of a tree comes, if nothing in front of them fails. -/
def reached (tree : Tree) : List (String × Tree) :=
  (evaluationOrder tree).filterMap assignment?

section Reached

variable {index size : Nat} {kind : Kind} {inner left right : Tree}

theorem reached_paren
    : reached ⟨index, size, .named "paren", .token inner⟩ = reached inner := by
  rw [reached, evaluationOrder_paren, List.filterMap_append]
  exact List.append_nil _

theorem reached_token (h : kind ≠ .named "paren")
    : reached ⟨index, size, kind, .token inner⟩ = [] := by
  rw [reached, evaluationOrder_token h]
  rfl

theorem reached_binary {operator : Char}
    : reached ⟨index, size, kind, .custom (.binary left operator right)⟩
      = reached left ++ reached right := by
  rw [reached, evaluationOrder_binary, List.filterMap_append, List.filterMap_append]
  exact congrArg _ (List.append_nil _)

theorem reached_assignment {name : String}
    : reached ⟨index, size, kind, .custom (.assignment name right)⟩
      = reached right ++ [(name, right)] := by
  rw [reached, evaluationOrder_assignment, List.filterMap_append]
  rfl

end Reached

/-- Evaluation comes to no assignment that is not in the tree, and to each in its place, by
recursion on the tree.
-/
theorem reached_sublist : (tree : Tree) → (reached tree).Sublist (assignments tree)
  | ⟨_, _, _, .none⟩ => .slnil
  | ⟨_, _, _, .groups _⟩ => .slnil
  | ⟨_, _, _, .text _⟩ => .slnil
  | ⟨_, _, _, .tokens _⟩ => List.nil_sublist _
  | ⟨_, _, _, .custom (.number _)⟩ => .slnil
  | ⟨_, _, kind, .token inner⟩ => by
      by_cases hkind : kind = .named "paren"
      · subst hkind
        rw [reached_paren]
        exact reached_sublist inner
      · rw [reached_token hkind]
        exact List.nil_sublist _
  | ⟨_, _, _, .custom (.binary left _ right)⟩ => by
      rw [reached_binary]
      exact (reached_sublist left).append (reached_sublist right)
  | ⟨_, _, _, .custom (.assignment _ right)⟩ => by
      rw [reached_assignment]
      exact (reached_sublist right).append_right _
termination_by tree => sizeOf tree

/-- A tree that has a value holds no assignment that its evaluation does not come to, by
recursion on the tree: lists of tokens and tokens in other tokens than parentheses have no
value.
-/
theorem reached_eq_assignments
    : (tree : Tree) → {start later : Environment} → {value : Float}
      → evaluate tree start = (.ok value, later) → reached tree = assignments tree
  | ⟨_, _, _, .none⟩, _, _, _, h => by cases h
  | ⟨_, _, _, .groups _⟩, _, _, _, h => by cases h
  | ⟨_, _, _, .text _⟩, _, _, _, _ => rfl
  | ⟨_, _, _, .tokens _⟩, _, _, _, h => by cases h
  | ⟨_, _, _, .custom (.number _)⟩, _, _, _, _ => rfl
  | ⟨_, _, kind, .token inner⟩, start, later, value, h => by
      by_cases hkind : kind = .named "paren"
      · subst hkind
        rw [evaluate_paren] at h
        rw [reached_paren]
        exact reached_eq_assignments inner h
      · rw [evaluate_token hkind] at h
        cases h
  | ⟨_, _, _, .custom (.binary left _ right)⟩, start, later, value, h => by
      rw [evaluate_binary] at h
      rcases hfirst : evaluate left start with ⟨error | first, middle⟩ <;> rw [hfirst] at h
      · cases h
      · rw [Evaluation.andThen] at h
        rcases hsecond : evaluate right middle with ⟨error | second, last⟩ <;> rw [hsecond] at h
        · cases h
        · rw [reached_binary, reached_eq_assignments left hfirst,
            reached_eq_assignments right hsecond]
          rfl
  | ⟨_, _, _, .custom (.assignment _ right)⟩, start, later, value, h => by
      rw [evaluate_assignment] at h
      rcases hresult : evaluate right start with ⟨error | result, middle⟩ <;> rw [hresult] at h
      · cases h
      · rw [reached_assignment, reached_eq_assignments right hresult]
        rfl
termination_by tree => sizeOf tree

-----------------------------------------------------------------------------------------
-- Names that keep their values
-----------------------------------------------------------------------------------------

/-- The names that visits bind are those of the assignments among them, visit by visit. -/
theorem names_of_visits (visits : List Visit)
    : (visits.filterMap Visit.binding?).map Prod.fst
      = ((visits.map Visit.tree).filterMap assignment?).map Prod.fst := by
  simp only [List.filterMap_map, List.map_filterMap]
  congr 1
  funext visit
  simp [Visit.binding?, Function.comp_def]

/-- An evaluation leaves an environment in which names have been bound to which the tree assigns,
and no others.
-/
theorem Effects.exists_bindings {evaluation : Evaluation} (h : Effects start tree evaluation)
    : ∃ bindings : List (String × Float),
        evaluation.2 = start.bindAll bindings ∧ bindings.map Prod.fst ⊆ targets tree := by
  have hreached {visits : List Visit} {rest : List Tree}
      (order : evaluationOrder tree = visits.map Visit.tree ++ rest)
      : (visits.filterMap Visit.binding?).map Prod.fst ⊆ targets tree := by
    have hsublist := reached_sublist tree
    rw [reached, order, List.filterMap_append] at hsublist
    rw [names_of_visits]
    exact (((List.sublist_append_left _ _).trans hsublist).map Prod.fst).subset
  cases h with
  | value order visited =>
      exact ⟨_, rfl, @hreached _ [] (by rw [order, List.append_nil])⟩
  | error order visited operands fails => exact ⟨_, rfl, hreached order⟩

/-- A name to which a tree does not assign has the same value after the evaluation, whether or
not this fails, since only targets are bound.
-/
theorem Effects.get?_of_not_mem {result : Except EvaluationError Float} {later : Environment}
    {name : String} (h : Effects start tree (result, later)) (hname : name ∉ targets tree)
    : later.get? name = start.get? name := by
  obtain ⟨bindings, rfl, hnames⟩ := h.exists_bindings
  exact Environment.get?_bindAll_of_not_mem fun hmem => hname (hnames hmem)

/-- Evaluation removes no binding, since all that it does is to bind names. -/
theorem Effects.isSome_get? {result : Except EvaluationError Float} {later : Environment}
    {name : String} (h : Effects start tree (result, later)) (hname : (start.get? name).isSome)
    : (later.get? name).isSome := by
  obtain ⟨bindings, rfl, -⟩ := h.exists_bindings
  exact Environment.isSome_get?_bindAll hname

end TokenGrammar.Arithmetic
