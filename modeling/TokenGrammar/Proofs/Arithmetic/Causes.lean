import Mathlib.Data.List.Induction
import TokenGrammar.Proofs.Arithmetic.Assignments

/-! Why evaluations fail. All tokens in front of the one that fails had values, its own operands
among them, so that the error is its own: its name had no value, or its divisor was zero.
-/

namespace TokenGrammar.Arithmetic

-----------------------------------------------------------------------------------------
-- Tokens in a tree
-----------------------------------------------------------------------------------------

/-- The tokens that a token itself holds. -/
def children (tree : Tree) : List Tree :=
  match tree.value with
  | .token inner => [inner]
  | .tokens items => items
  | .custom (.binary left _ right) => [left, right]
  | .custom (.assignment _ right) => [right]
  | _ => []

/-- The token is the tree or one of those in it, at any depth. -/
inductive Occurs (token : Tree) : Tree → Prop where
  | here : Occurs token token
  | inside {child tree : Tree} (member : child ∈ children tree) (inner : Occurs token child)
      : Occurs token tree

/-- A token occurs in a tree as the tree itself or in one of its children. -/
theorem occurs_iff {token tree : Tree}
    : Occurs token tree ↔ token = tree ∨ ∃ child ∈ children tree, Occurs token child := by
  constructor
  · intro h
    cases h with
    | here => exact Or.inl rfl
    | inside member inner => exact Or.inr ⟨_, member, inner⟩
  · rintro (rfl | ⟨child, hmember, hinner⟩)
    · exact .here
    · exact .inside hmember hinner

theorem occurs_iff_of_children_eq_nil {token tree : Tree} (h : children tree = [])
    : Occurs token tree ↔ token = tree := by
  rw [occurs_iff, h]
  simp

/-- The tokens that are evaluated for a token, from left to right. Only a parenthesis is looked
into.
-/
def operands (tree : Tree) : List Tree :=
  match tree.value with
  | .token inner => if tree.kind = .named "paren" then [inner] else []
  | .custom (.binary left _ right) => [left, right]
  | .custom (.assignment _ right) => [right]
  | _ => []

/-- The operands of a token are evaluated one after the other, and then the token is, by cases
on its value.
-/
theorem evaluationOrder_eq (tree : Tree)
    : evaluationOrder tree = (operands tree).flatMap evaluationOrder ++ [tree] := by
  obtain ⟨index, size, kind, value⟩ := tree
  rw [evaluationOrder]
  congr 1
  cases value with
  | token inner =>
      simp only [operandOrder, operands]
      split <;> simp
  | custom node => cases node <;> simp [operandOrder, nodeOrder, operands]
  | _ => rfl

/-- Operands are children, by cases on the value of the token. -/
theorem operands_subset_children (tree : Tree) : operands tree ⊆ children tree := by
  obtain ⟨index, size, kind, value⟩ := tree
  cases value with
  | token inner =>
      simp only [operands, children]
      split <;> simp
  | custom node => cases node <;> simp [operands, children]
  | _ => simp [operands]

/-- A child is smaller than the tree, by cases on the value that holds it. -/
theorem sizeOf_lt_of_mem_children {tree child : Tree} (h : child ∈ children tree)
    : sizeOf child < sizeOf tree := by
  obtain ⟨index, size, kind, value⟩ := tree
  cases value with
  | token inner =>
      obtain rfl := List.mem_singleton.mp h
      simp
      omega
  | tokens items =>
      have hlt := List.sizeOf_lt_of_mem (show child ∈ items from h)
      simp
      omega
  | custom node =>
      cases node with
      | number value => simp [children] at h
      | binary left operator right =>
          rcases (by simpa [children] using h : child = left ∨ child = right) with rfl | rfl
          · simp
            omega
          · simp
            omega
      | assignment name right =>
          obtain rfl := List.mem_singleton.mp h
          simp
          omega
  | _ => simp [children] at h

/-- The tokens to which an evaluation comes are in the tree, by recursion on the operands. -/
theorem occurs_of_mem_evaluationOrder {token : Tree} (tree : Tree)
    (h : token ∈ evaluationOrder tree)
    : Occurs token tree := by
  rw [evaluationOrder_eq, List.mem_append, List.mem_flatMap, List.mem_singleton] at h
  rcases h with ⟨operand, hoperand, hmem⟩ | rfl
  · have hchild := operands_subset_children tree hoperand
    have hsmaller := sizeOf_lt_of_mem_children hchild
    exact .inside hchild (occurs_of_mem_evaluationOrder operand hmem)
  · exact .here
termination_by sizeOf tree

-----------------------------------------------------------------------------------------
-- Values of visited tokens
-----------------------------------------------------------------------------------------

section Visits

variable {start : Environment} {visits before part later : List Visit} {visit : Visit}
  {operand : Tree} {value : Float} {name : String}

/-- An assignment that was visited has bound its name, which stays bound by all visits behind
it.
-/
theorem isSome_get?_after {right : Tree} (hmem : visit ∈ visits)
    (hassignment : assignment? visit.tree = some (name, right))
    : ((start.after visits).get? name).isSome := by
  obtain ⟨front, rest, rfl⟩ := List.append_of_mem hmem
  rw [List.append_cons, Environment.after_append, start.after_assignment hassignment]
  refine Environment.isSome_get?_bindAll ?_
  rw [Environment.get?_bind, if_pos rfl]
  rfl

/-- A name that is unbound after some visits was unbound in front of them, and none of them was
an assignment to it, since what is bound stays bound.
-/
theorem unbound_of_after (h : (start.after visits).get? name = none)
    : start.get? name = none
      ∧ ∀ visit ∈ visits, ∀ right, assignment? visit.tree ≠ some (name, right) := by
  rw [← Option.not_isSome_iff_eq_none] at h ⊢
  constructor
  · intro hstart
    exact h (Environment.isSome_get?_bindAll hstart)
  · intro visit hmem right hassignment
    exact h (isSome_get?_after hmem hassignment)

/-- All visits but the last one were made without it, by cases on the last one. -/
theorem Visited.of_concat (h : Visited start (visits ++ [visit])) : Visited start visits := by
  generalize hwhole : visits ++ [visit] = whole at h
  cases h with
  | nil => simp at hwhole
  | assignment earlier =>
      obtain ⟨rfl, -⟩ := List.append_inj' hwhole rfl
      exact earlier
  | other earlier =>
      obtain ⟨rfl, -⟩ := List.append_inj' hwhole rfl
      exact earlier

/-- What was visited first was visited without what was visited later, by induction on the later
visits from their end.
-/
theorem Visited.of_append (h : Visited start (visits ++ later)) : Visited start visits := by
  induction later using List.reverseRecOn with
  | nil => rwa [List.append_nil] at h
  | append_singleton later visit ih =>
      rw [← List.append_assoc] at h
      exact ih h.of_concat

/-- Visits end with visits of given tokens in at most one way, since these are as many. -/
theorem split_unique {before' inner : List Visit} (h : before ++ part = before' ++ inner)
    (hparts : part.map Visit.tree = inner.map Visit.tree)
    : before = before' ∧ part = inner := by
  have hlength : part.length = inner.length := by
    simpa using congrArg List.length hparts
  exact List.append_inj' h hlength

/-- The last token that was visited had its value in the environment in front of its operands,
by cases on whether it is an assignment.
-/
theorem Visited.evaluates_last (h : Visited start (before ++ part ++ [⟨operand, value⟩]))
    (order : evaluationOrder operand = part.map Visit.tree ++ [operand])
    : evaluate operand (start.after before)
      = (.ok value, start.after (before ++ part ++ [⟨operand, value⟩])) := by
  generalize hwhole : before ++ part ++ [⟨operand, value⟩] = whole at h
  cases h with
  | nil => simp at hwhole
  | @assignment before' inner index size kind name right value' _ order' evaluates =>
      obtain ⟨hfront, hlast⟩ := List.append_inj' hwhole rfl
      obtain ⟨rfl, rfl⟩ := Visit.mk.inj (List.singleton_inj.mp hlast)
      have hparts : part.map Visit.tree = inner.map Visit.tree := by
        rw [evaluationOrder_assignment] at order
        exact (List.append_inj' order rfl).1.symm.trans order'
      obtain ⟨rfl, rfl⟩ := split_unique hfront hparts
      rw [evaluate_assignment, evaluates, start.after_assignment rfl]
      rfl
  | @other before' inner tree value' _ order' isOther evaluates =>
      obtain ⟨hfront, hlast⟩ := List.append_inj' hwhole rfl
      obtain ⟨rfl, rfl⟩ := Visit.mk.inj (List.singleton_inj.mp hlast)
      have hparts : part.map Visit.tree = inner.map Visit.tree :=
        (List.append_inj' (order.symm.trans order') rfl).1
      obtain ⟨rfl, rfl⟩ := split_unique hfront hparts
      rw [evaluates, start.after_other isOther]

/-- A token that was visited with all its operands had a value. -/
theorem Visited.evaluates (h : Visited start (before ++ part ++ later))
    (order : evaluationOrder operand = part.map Visit.tree)
    : ∃ value,
        evaluate operand (start.after before) = (.ok value, start.after (before ++ part)) := by
  rw [evaluationOrder_eq, eq_comm, List.map_eq_append_iff] at order
  obtain ⟨inner, last, rfl, horder, hlast⟩ := order
  obtain ⟨⟨tree, value⟩, rfl, rfl⟩ := List.map_eq_singleton_iff.mp hlast
  rw [← List.append_assoc] at h ⊢
  refine ⟨value, h.of_append.evaluates_last ?_⟩
  rw [evaluationOrder_eq, horder]

end Visits

-----------------------------------------------------------------------------------------
-- Causes
-----------------------------------------------------------------------------------------

/-- An evaluation comes to a token of the tree behind some visits, the last of which are those of
the operands of the token.
-/
structure ComesTo (start : Environment) (tree token : Tree) (before inner : List Visit)
    : Prop where
  occurs : Occurs token tree
  order : ∃ rest, evaluationOrder tree = (before ++ inner).map Visit.tree ++ token :: rest
  operandVisits : (operands token).flatMap evaluationOrder = inner.map Visit.tree
  visited : Visited start (before ++ inner)

/-- Why the evaluation of a tree fails with an error and which environment it leaves. A name is
unbound that had no value at the start and that no assignment bound; or a divisor was zero where
both operands had been evaluated; or a token is not one that has a value.
-/
inductive Cause (start : Environment) (tree : Tree) : EvaluationError → Environment → Prop where
  | unbound {name : String} {index size : Nat} {visits : List Visit}
      (comes : ComesTo start tree ⟨index, size, .named "identifier", .text name⟩ visits [])
      (unbound : start.get? name = none)
      (unassigned : ∀ visit ∈ visits, ∀ right, assignment? visit.tree ≠ some (name, right))
      : Cause start tree (.unbound name index) (start.after visits)
  | divisionByZero {index size : Nat} {kind : Kind} {left right : Tree} {operator : Char}
      {before inner : List Visit} {dividend divisor : Float} {middle : Environment}
      (comes
        : ComesTo start tree ⟨index, size, kind, .custom (.binary left operator right)⟩
            before inner)
      (divides : operator = '/' ∨ operator = '%')
      (leftEvaluates : evaluate left (start.after before) = (.ok dividend, middle))
      (rightEvaluates
        : evaluate right middle = (.ok divisor, start.after (before ++ inner)))
      (isZero : divisor == 0.0)
      : Cause start tree (.divisionByZero right.index) (start.after (before ++ inner))
  | unexpected {token : Tree} {before inner : List Visit}
      (comes : ComesTo start tree token before inner)
      : Cause start tree (.unexpected token.kind token.index) (start.after (before ++ inner))

section Causes

variable {start : Environment} {tree failing : Tree} {before inner : List Visit}
  {error : EvaluationError}

/-- A token whose value is not evaluated is unexpected, so the error is no other. -/
theorem ComesTo.cause_of_unexpected (comes : ComesTo start tree failing before inner)
    (unexpected
      : evaluate failing (start.after before)
        = (.error (.unexpected failing.kind failing.index), start.after before))
    (fails
      : evaluate failing (start.after before) = (.error error, start.after (before ++ inner)))
    : Cause start tree error (start.after (before ++ inner)) := by
  rw [unexpected] at fails
  obtain rfl := Except.error.inj (Prod.mk.inj fails).1
  exact .unexpected comes

/-- An identifier fails if its name has no value, so that nothing in front of it has bound it. -/
theorem ComesTo.cause_of_identifier {index size : Nat} {name : String}
    (comes : ComesTo start tree ⟨index, size, .named "identifier", .text name⟩ before inner)
    (fails
      : evaluate ⟨index, size, .named "identifier", .text name⟩ (start.after before)
        = (.error error, start.after (before ++ inner)))
    : Cause start tree error (start.after (before ++ inner)) := by
  obtain rfl : inner = [] := List.map_eq_nil_iff.mp comes.operandVisits.symm
  rw [evaluate, evaluateValue, if_pos rfl] at fails
  cases hget : (start.after before).get? name with
  | some value =>
      rw [hget] at fails
      cases fails
  | none =>
      rw [hget] at fails
      obtain rfl := Except.error.inj (Prod.mk.inj fails).1
      obtain ⟨hstart, hvisits⟩ := unbound_of_after hget
      rw [List.append_nil]
      exact .unbound comes hstart hvisits

/-- An operation fails if its operator does, since its operands had values. Either it divides by
zero, or its operator is unknown and the operation itself unexpected.
-/
theorem ComesTo.cause_of_binary {index size : Nat} {kind : Kind} {left right : Tree}
    {operator : Char}
    (comes
      : ComesTo start tree ⟨index, size, kind, .custom (.binary left operator right)⟩ before inner)
    (fails
      : evaluate ⟨index, size, kind, .custom (.binary left operator right)⟩ (start.after before)
        = (.error error, start.after (before ++ inner)))
    : Cause start tree error (start.after (before ++ inner)) := by
  obtain ⟨first, second, rfl, hleft, hright⟩
      : ∃ first second,
          inner = first ++ second
          ∧ first.map Visit.tree = evaluationOrder left
          ∧ second.map Visit.tree = evaluationOrder right := by
    refine List.map_eq_append_iff.mp (comes.operandVisits.symm.trans ?_)
    simp [operands]
  have hvisited : Visited start (before ++ first ++ second) := by
    rw [List.append_assoc]
    exact comes.visited
  obtain ⟨dividend, hdividend⟩ := hvisited.evaluates hleft.symm
  obtain ⟨divisor, hdivisor⟩
      : ∃ divisor,
          evaluate right (start.after (before ++ first))
          = (.ok divisor, start.after (before ++ (first ++ second))) := by
    rw [← List.append_assoc]
    exact Visited.evaluates (by rwa [List.append_nil]) hright.symm
  rw [evaluate_binary, hdividend, Evaluation.andThen, hdivisor] at fails
  rcases applyOperator_eq_error_iff.mp (Prod.mk.inj fails).1 with
    ⟨hdivides, hzero, rfl⟩ | ⟨-, rfl⟩
  · exact .divisionByZero comes hdivides hdividend hdivisor hzero
  · exact .unexpected comes

/-- What fails is the cause, by cases on its value. A parenthesis and an assignment never fail
themselves: their operands had values.
-/
theorem ComesTo.cause (comes : ComesTo start tree failing before inner)
    (fails
      : evaluate failing (start.after before) = (.error error, start.after (before ++ inner)))
    : Cause start tree error (start.after (before ++ inner)) := by
  have hvisited : Visited start (before ++ inner ++ []) := by
    rw [List.append_nil]
    exact comes.visited
  obtain ⟨index, size, kind, value⟩ := failing
  match value with
  | .none | .groups _ | .tokens _ => exact comes.cause_of_unexpected rfl fails
  | .text name =>
      by_cases hkind : kind = .named "identifier"
      · subst hkind
        exact comes.cause_of_identifier fails
      · refine comes.cause_of_unexpected ?_ fails
        rw [evaluate, evaluateValue, if_neg hkind]
  | .token operand =>
      by_cases hkind : kind = .named "paren"
      · subst hkind
        have horder : evaluationOrder operand = inner.map Visit.tree := by
          simpa [operands] using comes.operandVisits
        obtain ⟨value, hvalue⟩ := hvisited.evaluates horder
        rw [evaluate_paren, hvalue] at fails
        cases fails
      · exact comes.cause_of_unexpected (evaluate_token hkind) fails
  | .custom (.number number) => cases fails
  | .custom (.binary left operator right) => exact comes.cause_of_binary fails
  | .custom (.assignment name right) =>
      have horder : evaluationOrder right = inner.map Visit.tree := by
        simpa [operands] using comes.operandVisits
      obtain ⟨value, hvalue⟩ := hvisited.evaluates horder
      rw [evaluate_assignment, hvalue] at fails
      cases fails

/-- An evaluation that fails has a cause in its tree, the token where its visits stop. -/
theorem evaluate_cause {later : Environment} (h : evaluate tree start = (.error error, later))
    : Cause start tree error later := by
  have heffects := evaluate_effects tree start
  rw [h] at heffects
  cases heffects with
  | @error before inner failing rest _ order visited own fails =>
      have hmem : failing ∈ evaluationOrder tree := by
        simp [order]
      have hoperands : (operands failing).flatMap evaluationOrder = inner.map Visit.tree := by
        rw [evaluationOrder_eq] at own
        exact (List.append_inj' own rfl).1
      have comes : ComesTo start tree failing before inner :=
        ⟨occurs_of_mem_evaluationOrder tree hmem, ⟨rest, order⟩, hoperands, visited⟩
      exact comes.cause fails

end Causes

/-- Errors of an evaluation point at their cause. Where the error says so, a token of the tree is an
identifier whose name was unbound from the start and to which no assignment in front of it was
carried out, or the right operand of a division came to zero behind the left one. So no name is
found to be unbound if those of all identifiers in the tree are bound at the start.
-/
theorem cause_of_error (tree : Tree) (start : Environment)
    : (∀ error later, evaluate tree start = (.error error, later) → Cause start tree error later)
      ∧ ((∀ index size name,
            Occurs ⟨index, size, .named "identifier", .text name⟩ tree
            → (start.get? name).isSome)
          → ∀ name index later, evaluate tree start ≠ (.error (.unbound name index), later)) := by
  refine ⟨fun error later h => evaluate_cause h, fun hbound name index later h => ?_⟩
  cases evaluate_cause h with
  | unbound comes unbound unassigned =>
      have hname := hbound _ _ _ comes.occurs
      rw [unbound] at hname
      contradiction

/-- In `1 / x` where `x` is zero, the divisor is the cause and no name is unbound. -/
theorem quotient_cause
    : let divisor : Tree := ⟨4, 1, .named "identifier", .text "x"⟩
      let one : Tree := ⟨0, 1, .named "number", .custom (.number 1)⟩
      let quotient : Tree := ⟨0, 5, .named "mul", .custom (.binary one '/' divisor)⟩
      let start : Environment := { bindings := [("x", 0)] }
      evaluate quotient start = (.error (.divisionByZero 4), start)
      ∧ Cause start quotient (.divisionByZero 4) start
      ∧ (∀ index size name,
          Occurs ⟨index, size, .named "identifier", .text name⟩ quotient
          → (start.get? name).isSome)
      ∧ ∀ name index later, evaluate quotient start ≠ (.error (.unbound name index), later) := by
  intro divisor one quotient start
  have hevaluate : evaluate quotient start = (.error (.divisionByZero 4), start) := rfl
  have hbound (index size : Nat) (name : String)
      (h : Occurs ⟨index, size, .named "identifier", .text name⟩ quotient)
      : (start.get? name).isSome := by
    have hx : name = "x" := by
      rcases occurs_iff.mp h with heq | ⟨child, hchild, hinner⟩
      · simp [quotient] at heq
      · have hchildren : child = one ∨ child = divisor := by
          simpa [children, quotient] using hchild
        rcases hchildren with rfl | rfl
        · simpa [one] using (occurs_iff_of_children_eq_nil rfl).mp hinner
        · have heq := (occurs_iff_of_children_eq_nil rfl).mp hinner
          exact Value.text.inj (Token.mk.inj heq).2.2.2
    rw [hx]
    rfl
  obtain ⟨hcause, hnever⟩ := cause_of_error quotient start
  exact ⟨hevaluate, hcause _ _ hevaluate, hbound, hnever hbound⟩

end TokenGrammar.Arithmetic
