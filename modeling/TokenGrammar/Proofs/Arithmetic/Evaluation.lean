import TokenGrammar.Proofs.Arithmetic.Assignments
import TokenGrammar.Proofs.Arithmetic.Soundness

/-! Evaluation of expressions that were read from a source. The shape of each value fits the kind
of its token, and operators are those of their level, so evaluation never meets a token that it
does not expect.
-/

namespace TokenGrammar.Arithmetic

/-- A number, or one of the errors that an expression can have whose tokens are all expected. -/
inductive Regular : Except EvaluationError Float → Prop where
  | value (value : Float) : Regular (.ok value)
  | unbound (name : String) (index : Nat) : Regular (.error (.unbound name index))
  | divisionByZero (index : Nat) : Regular (.error (.divisionByZero index))

/-- Going on regularly keeps an evaluation regular, in whichever environment it goes on, by
cases on its result.
-/
theorem Regular.andThen {evaluation : Evaluation} {next : Float → Environment → Evaluation}
    (h : Regular evaluation.1) (hnext : ∀ value environment, Regular (next value environment).1)
    : Regular (evaluation.andThen next).1 := by
  obtain ⟨result, environment⟩ := evaluation
  cases h with
  | value value => exact hnext value environment
  | unbound name index => exact .unbound name index
  | divisionByZero index => exact .divisionByZero index

theorem Level.mem_knownOperators {level : Level} {operator : Char} (h : operator ∈ level.operators)
    : operator ∈ knownOperators := by
  have hsubset : level.operators ⊆ knownOperators := by
    cases level <;> simp [Level.operators, knownOperators]
  exact hsubset h

/-- The operators of a level are all that may be applied, so the only error is a divisor that is
zero.
-/
theorem regular_applyOperator {level : Level} {operator : Char} (h : operator ∈ level.operators)
    (kind : Kind) (index rightIndex : Nat) (left right : Float)
    : Regular (applyOperator kind index rightIndex operator left right) := by
  cases hresult : applyOperator kind index rightIndex operator left right with
  | ok value => exact .value value
  | error error =>
      rcases applyOperator_eq_error_iff.mp hresult with ⟨-, -, rfl⟩ | ⟨hunknown, -⟩
      · exact .divisionByZero rightIndex
      · exact absurd (Level.mem_knownOperators h) hunknown

/-- A tree that matches a source has a regular evaluation in every environment, by induction on
the tree: assignments only change the environment in which the rest is evaluated.
-/
theorem Matches.regular {source : Source} {tree : Tree} (h : Matches source tree)
    (environment : Environment)
    : Regular (evaluate tree environment).1 := by
  induction h generalizing environment with
  | number => exact .value _
  | @identifier index size text =>
      rw [evaluate, evaluateValue, if_pos rfl]
      cases environment.get? (String.ofList text) with
      | none => exact .unbound _ index
      | some value => exact .value value
  | paren _ _ _ _ _ ih =>
      rw [evaluate, evaluateValue, if_pos rfl]
      exact ih environment
  | assignment _ _ _ _ ih =>
      rw [evaluate, evaluateValue, evaluateNode]
      exact (ih environment).andThen fun value _ => .value value
  | operation level _ _ _ _ _ member _ _ _ _ ihLeft ihRight =>
      rw [evaluate, evaluateValue, evaluateNode]
      refine (ihLeft environment).andThen fun first later => ?_
      refine (ihRight later).andThen fun second _ => ?_
      exact regular_applyOperator member _ _ _ first second

/-- What is read of a whole source is what the rule of expressions reads at some offset, with
nothing but white space behind it.
-/
theorem exists_reads_of_parse {source : Source} {tree : Tree}
    (h : (parse source).outcome = .matched tree)
    : ∃ index, Rule.expression.parser.Reads source index tree := by
  simp only [parse, Reply.outcome_bind_eq_matched_iff] at h
  obtain ⟨found, hreads, hblank⟩ := h
  split at hblank
  case isTrue =>
    obtain rfl := Outcome.matched.inj hblank
    exact ⟨_, hreads⟩
  case isFalse => contradiction

/-- What any rule reads at any offset, or what is read of a whole source, evaluates to a number or
fails because a name is unbound or a divisor is zero, in every environment.
-/
theorem evaluate_of_reads {source : Source} {tree : Tree}
    (h
      : (parse source).outcome = .matched tree
        ∨ ∃ rule index, (Rule.parser rule source index).outcome = .matched tree)
    (environment : Environment)
    : (∃ value, (evaluate tree environment).1 = .ok value)
      ∨ (∃ name index, (evaluate tree environment).1 = .error (.unbound name index))
      ∨ ∃ index, (evaluate tree environment).1 = .error (.divisionByZero index) := by
  obtain ⟨rule, index, hreads⟩ : ∃ rule index, (Rule.parser rule).Reads source index tree := by
    rcases h with hparse | hrule
    · exact ⟨.expression, exists_reads_of_parse hparse⟩
    · exact hrule
  have hregular := (soundWithin source _ rule index tree hreads).matched.regular environment
  generalize (evaluate tree environment).1 = result at hregular
  cases hregular with
  | value value => exact Or.inl ⟨value, rfl⟩
  | unbound name index => exact Or.inr (Or.inl ⟨name, index, rfl⟩)
  | divisionByZero index => exact Or.inr (Or.inr ⟨index, rfl⟩)

/-- In `x = 6 / (y - 2)`, the divisor is zero where `y` is 2. -/
theorem quotient_evaluates
    : ∃ tree,
        let source := Source.ofString "x = 6 / (y - 2)"
        let environment : Environment := { bindings := [("y", 2)] }
        ((parse source).outcome = .matched tree
          ∨ ∃ rule index, (Rule.parser rule source index).outcome = .matched tree)
        ∧ tree.stop = 15
        ∧ ((∃ value, (evaluate tree environment).1 = .ok value)
          ∨ (∃ name index, (evaluate tree environment).1 = .error (.unbound name index))
          ∨ ∃ index, (evaluate tree environment).1 = .error (.divisionByZero index)) := by
  have hstop : (parse (.ofString "x = 6 / (y - 2)")).outcome.result?.map Token.stop = some 15 := by
    decide +kernel
  obtain ⟨tree, hresult, hstop⟩ := Option.map_eq_some_iff.mp hstop
  have hparse := Outcome.result?_eq_some_iff.mp hresult
  exact ⟨tree, Or.inl hparse, hstop, evaluate_of_reads (Or.inl hparse) _⟩

end TokenGrammar.Arithmetic
