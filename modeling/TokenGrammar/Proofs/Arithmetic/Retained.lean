import TokenGrammar.Proofs.Arithmetic.Soundness
import TokenGrammar.Proofs.Malformed

/-! What sequences retain for the actions of arithmetic expressions: parentheses and signs of
equality are dropped, operators are kept between their operands.
-/

namespace TokenGrammar.Arithmetic

/-- The tokens are those that the action expects, in this order: an expression for a parenthesis,
an operand, a captured operator and a chain for an operation, and an identifier with its text and an
expression for an assignment. Operands and expressions match the source.
-/
inductive Action.Fits (source : Source) : Action → List Tree → Prop where
  | paren {inner : Tree} (innerMatches : Matches source inner) : Fits source .paren [inner]
  | binary {level : Level} {left sign right : Tree} {operator : Char}
    (leftMatches : Matches source left) (leftKind : left.kind ∈ level.operands)
    (signKind : sign.kind = .named "regex")
    (captured : capturedOperator? sign = some operator) (known : operator ∈ level.operators)
    (rightMatches : Matches source right) (rightKind : right.kind ∈ level.chains)
    : Fits source (.binary level.kind) [left, sign, right]
  | assignment {target right : Tree} {name : String}
    (targetKind : target.kind = .named "identifier") (text : target.value = .text name)
    (rightMatches : Matches source right)
    : Fits source .assignment [target, right]

/-- An action accepts tokens that it expects, by cases on how they fit. -/
theorem Action.Fits.exists_perform {source : Source} {action : Action} {items : List Tree}
    {token : Tree} (h : action.Fits source items) (hvalue : token.value = .tokens items)
    : ∃ changed, action.perform token = .ok changed := by
  cases h with
  | paren _ => exact ⟨_, rfl⟩
  | @binary level left sign right operator _ _ _ captured _ _ _ =>
      refine ⟨leftNested level.kind left operator right, ?_⟩
      simp only [perform, hvalue, captured]
  | assignment _ _ _ =>
      simp only [perform, hvalue]
      exact ⟨_, rfl⟩

section Rules

variable {source : Source} {depth : Nat}

/-- The sequence of a parenthesis retains the expression between its marks, which are ignored.
-/
theorem paren_retains (h : SoundWithin source depth)
    : (Parser.sequence
        [Parser.ignored openPattern.parser, language.rule depth .expression,
          Parser.ignored closePattern.parser]
        none).Retains source (Action.paren.Fits source) := by
  intro index token hreads
  obtain ⟨_, inner, _, hfront, hinner, hback, -, rfl⟩ :=
    Parser.sequence_triple_reads_iff.mp hreads
  obtain ⟨front, -, rfl⟩ := Parser.ignored_reads_iff.mp hfront
  obtain ⟨back, -, rfl⟩ := Parser.ignored_reads_iff.mp hback
  have hmatches := (h _ _ _ hinner).matched
  have hkept : Parser.kept [front.ignore, inner, back.ignore] = [inner] := by
    simp [Parser.kept_cons_of_not_ignored hmatches.isIgnored_eq_false]
  exact ⟨[inner], congrArg _ hkept, .paren hmatches⟩

/-- The sequence of an operation retains both operands and the operator between them. -/
theorem binary_retains {level : Level} {first second : Parser Node}
    (h : SoundOperands source level first second)
    : (Parser.sequence [first, level.pattern.parser, second] none).Retains source
        ((Action.binary level.kind).Fits source) := by
  intro index token hreads
  obtain ⟨left, sign, right, hleft, hsign, hright, -, rfl⟩ :=
    Parser.sequence_triple_reads_iff.mp hreads
  obtain ⟨-, hleftMatches, hleftKind⟩ := h.first hleft
  obtain ⟨-, hrightMatches, hrightKind⟩ := h.second hright
  obtain ⟨operator, hknown, hcaptured, -⟩ := Level.exists_slice_of_reads hsign
  have hkept : Parser.kept [left, sign, right] = [left, sign, right] :=
    Parser.kept_triple hleftMatches.isIgnored_eq_false (Pattern.isIgnored_of_reads hsign)
      hrightMatches.isIgnored_eq_false
  obtain ⟨_, _, -, -, rfl⟩ := Pattern.reads_iff.mp hsign
  exact ⟨_, congrArg _ hkept,
    .binary hleftMatches hleftKind rfl hcaptured hknown hrightMatches hrightKind⟩

/-- The sequence of an assignment retains the name and the expression, as the sign is ignored.
-/
theorem assignment_retains (h : SoundWithin source depth)
    : (Parser.sequence
        [language.rule depth .identifier, Parser.ignored equalsPattern.parser,
          language.rule depth .expression]
        none).Retains source (Action.assignment.Fits source) := by
  intro index token hreads
  obtain ⟨target, _, right, htarget, hequals, hright, -, rfl⟩ :=
    Parser.sequence_triple_reads_iff.mp hreads
  obtain ⟨equals, -, rfl⟩ := Parser.ignored_reads_iff.mp hequals
  obtain ⟨-, htargetMatches, hkind⟩ := h _ _ _ htarget
  obtain ⟨name, -, htext⟩ := htargetMatches.eq_identifier hkind
  have hrightMatches := (h _ _ _ hright).matched
  have hkept : Parser.kept [target, equals.ignore, right] = [target, right] := by
    simp [Parser.kept_cons_of_not_ignored htargetMatches.isIgnored_eq_false,
      Parser.kept_cons_of_not_ignored hrightMatches.isIgnored_eq_false]
  exact ⟨[target, right], congrArg _ hkept, .assignment hkind htext hrightMatches⟩

/-- The sequence of a rule retains what the action of the rule expects, by cases on the rule. -/
theorem rule_retains {rule : Rule} {action : Action} {bodies : List (Grammar Rule Action)}
    {ahead : Option (Grammar Rule Action)}
    (hrule : rule.grammar = .act action (.sequence bodies ahead)) (depth : Nat)
    : (language.parserWithin depth (.sequence bodies ahead)).Retains source
        (action.Fits source) := by
  have h := soundWithin source depth
  cases rule with
  | number | identifier | atom | factor | expression => cases hrule
  | paren =>
      cases hrule
      exact paren_retains h
  | product =>
      cases hrule
      have hproducts := binary_retains h.products
      exact hproducts
  | sum =>
      cases hrule
      have hsums := binary_retains h.sums
      exact hsums
  | assignment =>
      cases hrule
      exact assignment_retains h

/-- A number that cannot be read is no malformed token, for it has a message of its own. -/
theorem neverMalformed_number
    : (language.rule (depth + 1) .number).NeverMalformed source := by
  rw [rule_number]
  refine (Parser.neverMalformed_pattern _).refine fun {index token error} _ herror => ?_
  rw [Action.perform] at herror
  split at herror
  case h_1 => contradiction
  case h_2 =>
    obtain rfl := Except.error.inj herror
    exact ParseError.noneMalformed_invalidNumber _ _

theorem neverMalformed_identifier
    : (language.rule (depth + 1) .identifier).NeverMalformed source := by
  rw [rule_identifier]
  exact (Parser.neverMalformed_pattern _).refine fun _ herror => by contradiction

/-- A parenthesis fails where its parts do, since what it retains is accepted. -/
theorem neverMalformed_paren (h : SoundWithin source depth)
    (hexpression : (language.rule depth .expression).NeverMalformed source)
    : (language.rule (depth + 1) .paren).NeverMalformed source := by
  rw [rule_paren]
  have hmark (mark : Pattern) : (Parser.ignored mark.parser : Parser Node).NeverMalformed source :=
    (Parser.neverMalformed_pattern mark).ignored
  exact (Parser.neverMalformed_triple (hmark _) hexpression (hmark _)).refine_of_retains
    (paren_retains h) fun _ _ hvalue hfits => hfits.exists_perform hvalue

/-- An operation fails where its parts do, since what it retains is accepted. -/
theorem neverMalformed_binary {level : Level} {first second : Parser Node}
    (h : SoundOperands source level first second) (hfirst : first.NeverMalformed source)
    (hsecond : second.NeverMalformed source)
    : (binary level first second).NeverMalformed source :=
  (Parser.neverMalformed_triple hfirst (Parser.neverMalformed_pattern _) hsecond).refine_of_retains
    (binary_retains h) fun _ _ hvalue hfits => hfits.exists_perform hvalue

/-- An assignment fails where its parts do, since what it retains is accepted. -/
theorem neverMalformed_assignment (h : SoundWithin source depth)
    (hrules : ∀ rule, (language.rule depth rule).NeverMalformed source)
    : (language.rule (depth + 1) .assignment).NeverMalformed source := by
  rw [rule_assignment]
  have hequals : (Parser.ignored equalsPattern.parser : Parser Node).NeverMalformed source :=
    (Parser.neverMalformed_pattern _).ignored
  exact (Parser.neverMalformed_triple (hrules _) hequals (hrules _)).refine_of_retains
    (assignment_retains h) fun _ _ hvalue hfits => hfits.exists_perform hvalue

/-- No rule fails with an error about a malformed token, by induction on the depth. -/
theorem rule_neverMalformed (depth : Nat) (rule : Rule)
    : (language.rule depth rule).NeverMalformed source := by
  induction depth generalizing rule with
  | zero => exact Parser.neverMalformed_unresolved
  | succ depth ih =>
      have hsound := soundWithin source depth
      have hchoice (rules : List Rule)
          : (Parser.choice (rules.map (language.rule depth))).NeverMalformed source :=
        Parser.neverMalformed_choice (List.forall_mem_map.mpr fun rule _ => ih rule)
      cases rule with
      | number => exact neverMalformed_number
      | identifier => exact neverMalformed_identifier
      | paren => exact neverMalformed_paren hsound (ih .expression)
      | atom =>
          rw [rule_atom]
          exact hchoice _
      | product =>
          rw [rule_product]
          exact neverMalformed_binary hsound.products (ih .atom) (hchoice _)
      | sum =>
          rw [rule_sum]
          exact neverMalformed_binary hsound.sums (hchoice _) (hchoice _)
      | assignment => exact neverMalformed_assignment hsound ih
      | factor =>
          rw [rule_factor]
          exact hchoice _
      | expression =>
          rw [rule_expression]
          exact hchoice _

end Rules

end TokenGrammar.Arithmetic
