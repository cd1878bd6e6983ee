import TokenGrammar.Proofs.Arithmetic.Patterns
import TokenGrammar.Proofs.Sequences

/-! The parsers of the rules of arithmetic expressions, one level further up each. Proofs about
the language rewrite with these equations and never unfold it.
-/

namespace TokenGrammar.Arithmetic

variable (depth : Nat)

theorem rule_number
    : language.rule (depth + 1) .number
      = Parser.refine (Action.perform .number) numberPattern.parser :=
  rfl

theorem rule_identifier
    : language.rule (depth + 1) .identifier
      = Parser.refine (Action.perform .identifier) namePattern.parser :=
  rfl

theorem rule_paren
    : language.rule (depth + 1) .paren
      = Parser.refine (Action.perform .paren)
          (Parser.sequence
            [Parser.ignored openPattern.parser, language.rule depth .expression,
              Parser.ignored closePattern.parser]
            none) :=
  rfl

theorem rule_atom
    : language.rule (depth + 1) .atom
      = Parser.choice ([.number, .identifier, .paren].map (language.rule depth)) :=
  rfl

/-- The parser of the operations of a level on what two other parsers read. -/
def binary (level : Level) (first second : Parser Node) : Parser Node :=
  Parser.refine (Action.perform (.binary level.kind))
    (Parser.sequence [first, level.pattern.parser, second] none)

theorem rule_product
    : language.rule (depth + 1) .product
      = binary .product (language.rule depth .atom)
          (Parser.choice ([.product, .atom].map (language.rule depth))) :=
  rfl

/-- A sum is a product or an atom, a sign of its level and any of these or another sum. -/
theorem rule_sum
    : language.rule (depth + 1) .sum
      = binary .sum (Parser.choice ([.product, .atom].map (language.rule depth)))
          (Parser.choice ([.sum, .product, .atom].map (language.rule depth))) :=
  rfl

theorem rule_assignment
    : language.rule (depth + 1) .assignment
      = Parser.refine (Action.perform .assignment)
          (Parser.sequence
            [language.rule depth .identifier, Parser.ignored equalsPattern.parser,
              language.rule depth .expression]
            none) :=
  rfl

/-- A factor is an assignment or an atom, the assignment first as it starts with a name. -/
theorem rule_factor
    : language.rule (depth + 1) .factor
      = Parser.choice ([.assignment, .atom].map (language.rule depth)) :=
  rfl

/-- An expression is a sum, a product or a factor, the one with the loosest operators first. -/
theorem rule_expression
    : language.rule (depth + 1) .expression
      = Parser.choice ([.sum, .product, .factor].map (language.rule depth)) :=
  rfl

section Readings

variable {source : Source} {index : Nat} {tree : Tree} {expression : Parser Node}

/-- The parser yields no ignored tokens, so that sequences keep them. -/
def KeepsTokens (source : Source) (parser : Parser Node) : Prop :=
  ∀ index tree, parser.Reads source index tree → tree.isIgnored = false

/-- A number is read if the text that its pattern matches is the text of a number. -/
theorem number_reads_iff
    : (Parser.refine (Action.perform .number) numberPattern.parser).Reads source index tree
      ↔ ∃ token value,
          numberPattern.parser.Reads source index token
          ∧ Binary64.read (matchedText token) = .ok value
          ∧ token.relabel (.named "number") (.custom (.number value)) = tree := by
  rw [Parser.refine_reads_iff]
  refine exists_congr fun token => ?_
  cases hread : Binary64.read (matchedText token) <;> simp [Action.perform, hread]

theorem identifier_reads_iff
    : (Parser.refine (Action.perform .identifier) namePattern.parser).Reads source index tree
      ↔ ∃ token,
          namePattern.parser.Reads source index token
          ∧ token.relabel (.named "identifier") (.text (matchedText token)) = tree := by
  rw [Parser.refine_reads_iff]
  refine exists_congr fun token => ?_
  simp [Action.perform]

/-- A parenthesis covers its marks and keeps what is between them, since the marks are ignored.
-/
theorem paren_reads_iff (hexpression : KeepsTokens source expression)
    : (Parser.refine (Action.perform .paren)
          (Parser.sequence
            [Parser.ignored openPattern.parser, expression,
              Parser.ignored closePattern.parser]
            none)).Reads source index tree
      ↔ ∃ front inner back : Tree,
          openPattern.parser.Reads source index front
          ∧ expression.Reads source front.stop inner
          ∧ closePattern.parser.Reads source inner.stop back
          ∧ { index, size := back.stop - index, kind := .named "paren", value := .token inner }
            = tree := by
  have hkept {front inner back : Tree} (hinner : inner.isIgnored = false)
      : Parser.kept [front.ignore, inner, back.ignore] = [inner] := by
    simp [Parser.kept_cons_of_not_ignored hinner]
  simp only [Parser.refine_reads_iff, Parser.sequence_triple_reads_iff,
    Parser.ignored_reads_iff]
  constructor
  · intro h
    obtain ⟨_, ⟨_, inner, _, ⟨front, hfront, rfl⟩, hinner, ⟨back, hback, rfl⟩, -, rfl⟩, htree⟩ := h
    rw [hkept (hexpression _ _ hinner)] at htree
    exact ⟨front, inner, back, hfront, hinner, hback, Except.ok.inj htree⟩
  · intro h
    obtain ⟨front, inner, back, hfront, hinner, hback, rfl⟩ := h
    refine ⟨_, ⟨_, inner, _, ⟨front, hfront, rfl⟩, hinner, ⟨back, hback, rfl⟩, ?_, rfl⟩, ?_⟩
    · simp [hkept (hexpression _ _ hinner)]
    · rw [hkept (hexpression _ _ hinner)]
      rfl

/-- An assignment keeps a name and what is assigned to it, since the sign between them is
ignored.
-/
theorem assignment_reads_iff {identifier : Parser Node}
    (hidentifier : KeepsTokens source identifier) (hexpression : KeepsTokens source expression)
    : (Parser.refine (Action.perform .assignment)
          (Parser.sequence [identifier, Parser.ignored equalsPattern.parser, expression]
            none)).Reads source index tree
      ↔ ∃ target equals right : Tree,
          identifier.Reads source index target
          ∧ equalsPattern.parser.Reads source target.stop equals
          ∧ expression.Reads source equals.stop right
          ∧ { index, size := right.stop - index, kind := .named "assignment",
              value := .custom (.assignment (target.value.text?.getD "") right) }
            = tree := by
  have hkept {target equals right : Tree} (htarget : target.isIgnored = false)
      (hright : right.isIgnored = false)
      : Parser.kept [target, equals.ignore, right] = [target, right] := by
    simp [Parser.kept_cons_of_not_ignored htarget, Parser.kept_cons_of_not_ignored hright]
  simp only [Parser.refine_reads_iff, Parser.sequence_triple_reads_iff,
    Parser.ignored_reads_iff]
  constructor
  · intro h
    obtain ⟨_, ⟨target, _, right, htarget, ⟨equals, hequals, rfl⟩, hright, -, rfl⟩, htree⟩ := h
    rw [hkept (hidentifier _ _ htarget) (hexpression _ _ hright)] at htree
    exact ⟨target, equals, right, htarget, hequals, hright, Except.ok.inj htree⟩
  · intro h
    obtain ⟨target, equals, right, htarget, hequals, hright, rfl⟩ := h
    have hitems : Parser.kept [target, equals.ignore, right] = [target, right] :=
      hkept (hidentifier _ _ htarget) (hexpression _ _ hright)
    refine ⟨_, ⟨target, _, right, htarget, ⟨equals, hequals, rfl⟩, hright, ?_, rfl⟩, ?_⟩
    · simp [hitems]
    · rw [hitems]
      rfl

/-- An operation reads an operand, an operator and another operand, and nests them, since its
action finds the operator captured.
-/
theorem binary_reads_iff {level : Level} {first second : Parser Node}
    (hfirst : KeepsTokens source first) (hsecond : KeepsTokens source second)
    : (binary level first second).Reads source index tree
      ↔ ∃ left sign right operator,
          first.Reads source index left
          ∧ level.pattern.parser.Reads source left.stop sign
          ∧ second.Reads source sign.stop right
          ∧ capturedOperator? sign = some operator
          ∧ leftNested level.kind left operator right = tree := by
  have hkept {left sign right : Tree} (hleft : first.Reads source index left)
      (hsign : level.pattern.parser.Reads source left.stop sign)
      (hright : second.Reads source sign.stop right)
      : Parser.kept [left, sign, right] = [left, sign, right] :=
    Parser.kept_triple (hfirst _ _ hleft) (Pattern.isIgnored_of_reads hsign) (hsecond _ _ hright)
  simp only [binary, Parser.refine_reads_iff, Parser.sequence_triple_reads_iff]
  constructor
  · intro h
    obtain ⟨_, ⟨left, sign, right, hleft, hsign, hright, -, rfl⟩, htree⟩ := h
    obtain ⟨operator, -, hoperator, -⟩ := Level.exists_slice_of_reads hsign
    rw [hkept hleft hsign hright] at htree
    simp only [Action.perform, hoperator] at htree
    exact ⟨left, sign, right, operator, hleft, hsign, hright, hoperator,
      Except.ok.inj htree⟩
  · intro h
    obtain ⟨left, sign, right, operator, hleft, hsign, hright, hoperator, rfl⟩ := h
    refine ⟨_, ⟨left, sign, right, hleft, hsign, hright, ?_, rfl⟩, ?_⟩
    · simp [hkept hleft hsign hright]
    · rw [hkept hleft hsign hright]
      simp only [Action.perform, hoperator]

end Readings

end TokenGrammar.Arithmetic
