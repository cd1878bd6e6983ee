import TokenGrammar.Proofs.Arithmetic.Matches
import TokenGrammar.Proofs.Arithmetic.Rules

/-! Whatever the rules of arithmetic expressions read matches the source that it covers, by
induction on the depth to which rules are nested.
-/

namespace TokenGrammar.Arithmetic

/-- The kinds of the tokens of a rule. -/
def Rule.Yields : Rule → Kind → Prop
  | .number, kind => kind ∈ atomKinds
  | .identifier, kind => kind = .named "identifier"
  | .paren, kind => kind ∈ atomKinds
  | .atom, kind => kind ∈ atomKinds
  | .product, kind => kind ∈ Level.product.chains
  | .sum, kind => kind ∈ Level.sum.chains
  | .assignment, _ => True
  | .factor, _ => True
  | .expression, _ => True

/-- The token starts at the offset, matches the source and is of one of the kinds. -/
structure Sound (source : Source) (index : Nat) (kinds : Kind → Prop) (tree : Tree) : Prop where
  index_eq : tree.index = index
  matched : Matches source tree
  kind : kinds tree.kind

section Rules

variable {source : Source} {index depth : Nat} {tree : Tree}

/-- All rules are sound if they are nested no deeper. -/
abbrev SoundWithin (source : Source) (depth : Nat) : Prop :=
  ∀ rule index tree,
    (language.rule depth rule).Reads source index tree
    → Sound source index rule.Yields tree

/-- Sound rules read no ignored tokens, since these match no source. -/
theorem SoundWithin.keepsTokens (h : SoundWithin source depth) (rule : Rule)
    : KeepsTokens source (language.rule depth rule) := by
  intro index tree hreads
  exact (h rule index tree hreads).matched.isIgnored_eq_false

/-- What a choice of rules reads is of one of their kinds, since one of them has read it. -/
theorem SoundWithin.choice (h : SoundWithin source depth) {rules : List Rule}
    {kinds : Kind → Prop} (hkinds : ∀ rule ∈ rules, ∀ kind, rule.Yields kind → kinds kind)
    (hreads
      : (Parser.choice (rules.map (language.rule depth))).Reads source index tree)
    : Sound source index kinds tree := by
  obtain ⟨parser, hmem, hparser⟩ := Parser.exists_mem_of_choice_reads hreads
  obtain ⟨rule, hrule, rfl⟩ := List.mem_map.mp hmem
  obtain ⟨hindex, hmatches, hkind⟩ := h rule index tree hparser
  exact ⟨hindex, hmatches, hkinds rule hrule tree.kind hkind⟩

/-- A number matches the text that it covers, which is read as its value. -/
theorem number_sound (hreads : (language.rule (depth + 1) .number).Reads source index tree)
    : Sound source index Rule.number.Yields tree := by
  rw [rule_number, number_reads_iff] at hreads
  obtain ⟨token, value, htoken, hread, rfl⟩ := hreads
  obtain ⟨hindex, text, hslice, htext⟩ := exists_slice_of_reads htoken
  refine ⟨hindex, ?_, List.mem_cons_self ..⟩
  exact .number (hindex ▸ hslice) (htext ▸ hread)

/-- A name holds the text that it covers. -/
theorem identifier_sound
    (hreads : (language.rule (depth + 1) .identifier).Reads source index tree)
    : Sound source index Rule.identifier.Yields tree := by
  rw [rule_identifier, identifier_reads_iff] at hreads
  obtain ⟨token, htoken, rfl⟩ := hreads
  obtain ⟨hindex, text, hslice, htext⟩ := exists_slice_of_reads htoken
  refine ⟨hindex, ?_, rfl⟩
  rw [htext]
  exact .identifier (hindex ▸ hslice)

/-- A parenthesis covers its marks, each framed by white space, and the expression between them,
which meets both.
-/
theorem paren_sound (h : SoundWithin source depth)
    (hreads : (language.rule (depth + 1) .paren).Reads source index tree)
    : Sound source index Rule.paren.Yields tree := by
  rw [rule_paren, paren_reads_iff (h.keepsTokens .expression)] at hreads
  obtain ⟨front, inner, back, hfront, hinner, hback, rfl⟩ := hreads
  obtain ⟨hindex, hmatches, -⟩ := h _ _ _ hinner
  obtain ⟨opening, hopening, hopens⟩ :=
    Pattern.exists_slice_of_reads (markPattern_spells _ (by decide)) hfront
  obtain ⟨closing, hclosing, hcloses⟩ :=
    Pattern.exists_slice_of_reads (markPattern_spells _ (by decide)) hback
  have hopened := (source.slice?_eq_some_iff.mp hopening).1
  have hclosed := (source.slice?_eq_some_iff.mp hclosing).1
  have hle : index ≤ inner.stop := by
    rw [Token.stop, hindex]
    omega
  have hstop : index + (back.stop - index) = back.stop := by
    omega
  refine ⟨rfl, ?_, by simp [Rule.Yields, atomKinds]⟩
  exact .paren (hindex ▸ hopening) hopens (by rw [hstop]; exact hclosing) hcloses hmatches

/-- An assignment covers its name, its sign, framed by white space, and its right side, which
meet one another.
-/
theorem assignment_sound (h : SoundWithin source depth)
    (hreads : (language.rule (depth + 1) .assignment).Reads source index tree)
    : Sound source index Rule.assignment.Yields tree := by
  rw [rule_assignment,
    assignment_reads_iff (h.keepsTokens .identifier) (h.keepsTokens .expression)] at hreads
  obtain ⟨target, equals, right, htarget, hequals, hright, rfl⟩ := hreads
  obtain ⟨htargetIndex, htargetMatches, hkind⟩ := h _ _ _ htarget
  obtain ⟨name, hname, hvalue⟩ := htargetMatches.eq_identifier hkind
  obtain ⟨between, hbetween, hframed⟩ :=
    Pattern.exists_slice_of_reads (markPattern_spells _ (by decide)) hequals
  obtain ⟨hrightIndex, hrightMatches, -⟩ := h _ _ _ hright
  have hslice : source.slice? index right.index = some (name ++ between) := by
    rw [htargetIndex] at hname
    rw [hrightIndex]
    exact source.slice?_append hname hbetween
  have hordered := (source.slice?_eq_some_iff.mp hslice).1
  have hstop : index + (right.stop - index) = right.stop := by
    simp only [Token.stop]
    omega
  refine ⟨rfl, ?_, trivial⟩
  simp only [hvalue, Value.text?, Option.getD_some]
  exact .assignment hslice hframed hstop hrightMatches

/-- What two parsers read are sound operands: an operand of the level and a chain of it. -/
structure SoundOperands (source : Source) (level : Level) (first second : Parser Node) : Prop where
  first
    : ∀ {index left},
        first.Reads source index left → Sound source index (· ∈ level.operands) left
  second
    : ∀ {index right},
        second.Reads source index right → Sound source index (· ∈ level.chains) right

section Operands

variable {level : Level} {first second : Parser Node}

/-- Sound operands are never ignored, so an operation on them reads both with an operator
between them.
-/
theorem SoundOperands.binary_reads_iff (h : SoundOperands source level first second)
    : (binary level first second).Reads source index tree
      ↔ ∃ left sign right operator,
          first.Reads source index left
          ∧ level.pattern.parser.Reads source left.stop sign
          ∧ second.Reads source sign.stop right
          ∧ capturedOperator? sign = some operator
          ∧ leftNested level.kind left operator right = tree := by
  refine Arithmetic.binary_reads_iff ?_ ?_
  · intro index left hleft
    exact (h.first hleft).matched.isIgnored_eq_false
  · intro index right hright
    exact (h.second hright).matched.isIgnored_eq_false

/-- Sound operands are nested to a chain that ends where the second one does, since the operator
covers what is between them.
-/
theorem SoundOperands.chains (h : SoundOperands source level first second)
    {left sign right : Tree} {operator : Char} (hleft : first.Reads source index left)
    (hsign : level.pattern.parser.Reads source left.stop sign)
    (hright : second.Reads source sign.stop right)
    (hoperator : capturedOperator? sign = some operator)
    : Chains source level index (leftNested level.kind left operator right) right.stop := by
  obtain ⟨hleftIndex, hleftMatches, hleftKind⟩ := h.first hleft
  obtain ⟨hrightIndex, hrightMatches, hrightKind⟩ := h.second hright
  obtain ⟨captured, hmember, hcaptured, between, hslice, hframed⟩ :=
    Level.exists_slice_of_reads hsign
  obtain rfl := Option.some.inj (hcaptured.symm.trans hoperator)
  have hstart : Chains source level index left left.stop :=
    ⟨hleftIndex, rfl, hleftMatches, List.mem_cons_of_mem _ hleftKind⟩
  exact chains_leftNested hstart (hrightIndex ▸ hslice) hframed hmember hrightMatches hrightKind

theorem SoundOperands.sound (h : SoundOperands source level first second)
    (hreads : (binary level first second).Reads source index tree)
    : Sound source index (· ∈ level.chains) tree := by
  rw [h.binary_reads_iff] at hreads
  obtain ⟨left, sign, right, operator, hleft, hsign, hright, hoperator, rfl⟩ := hreads
  obtain ⟨hindex, -, hmatches, hkind⟩ := h.chains hleft hsign hright hoperator
  exact ⟨hindex, hmatches, hkind⟩

theorem SoundWithin.products (h : SoundWithin source depth)
    : SoundOperands source .product (language.rule depth .atom)
        (Parser.choice ([.product, .atom].map (language.rule depth))) := by
  constructor
  · intro index left hleft
    exact h .atom index left hleft
  · intro index right hright
    exact h.choice (by simp +contextual [Rule.Yields, Level.chains, Level.operands]) hright

/-- Sums are operations on products and sums. -/
theorem SoundWithin.sums (h : SoundWithin source depth)
    : SoundOperands source .sum (Parser.choice ([.product, .atom].map (language.rule depth)))
        (Parser.choice ([.sum, .product, .atom].map (language.rule depth))) := by
  constructor
  · intro index left hleft
    exact h.choice
      (by simp +contextual [Rule.Yields, Level.chains, Level.operands, Level.kind]) hleft
  · intro index right hright
    exact h.choice
      (by simp +contextual [Rule.Yields, Level.chains, Level.operands, Level.kind]) hright

end Operands

/-- All rules are sound, by induction on the depth to which they are nested. -/
theorem soundWithin (source : Source) (depth : Nat) : SoundWithin source depth := by
  induction depth with
  | zero =>
      intro rule index tree hreads
      simp [Parser.Reads, Language.rule] at hreads
  | succ depth ih =>
      intro rule index tree hreads
      cases rule with
      | number => exact number_sound hreads
      | identifier => exact identifier_sound hreads
      | paren => exact paren_sound ih hreads
      | atom =>
          rw [rule_atom] at hreads
          exact ih.choice (by simp [Rule.Yields, atomKinds]) hreads
      | product =>
          rw [rule_product] at hreads
          exact ih.products.sound hreads
      | sum =>
          rw [rule_sum] at hreads
          exact ih.sums.sound hreads
      | assignment => exact assignment_sound ih hreads
      | factor =>
          rw [rule_factor] at hreads
          exact ih.choice (by simp [Rule.Yields]) hreads
      | expression =>
          rw [rule_expression] at hreads
          exact ih.choice (by simp [Rule.Yields]) hreads

end Rules

/-- Of a source that is read, all but the white space around it is covered by a token, and this
token and all tokens in it match the source.
-/
theorem parse_sound {source : Source} {tree : Tree}
    (h : (parse source).outcome = .matched tree)
    : (∃ before text after,
          source.chars = before ++ text ++ after
          ∧ IsBlank before
          ∧ IsBlank after
          ∧ byteLength before = tree.index
          ∧ source.slice? tree.index tree.stop = some text)
      ∧ Matches source tree := by
  simp only [parse, Reply.outcome_bind_eq_matched_iff] at h
  obtain ⟨found, hreads, hblank⟩ := h
  obtain ⟨hindex, hmatches, -⟩ := soundWithin source _ .expression _ found hreads
  split at hblank
  case isFalse => simp at hblank
  case isTrue hfrom =>
    obtain rfl := Outcome.matched.inj hblank
    refine ⟨?_, hmatches⟩
    obtain ⟨text, hslice⟩ := hmatches.exists_slice
    obtain ⟨-, after, hstart, hstop⟩ := source.slice?_eq_some_iff.mp hslice
    have hdrop : source.rest? found.index = some (source.chars.dropWhile Unicode.isSpace) := by
      rw [hindex]
      exact rest?_trimmed source
    have hsplit := Option.some.inj (hdrop.symm.trans hstart)
    refine ⟨source.chars.takeWhile Unicode.isSpace, text, after, ?_,
      isBlank_takeWhile source.chars, ?_, hindex.symm, hslice⟩
    · rw [List.append_assoc, ← hsplit, List.takeWhile_append_dropWhile]
    · obtain ⟨place, hplace, rfl⟩ := source.exists_at?_of_rest? hstop
      simp only [Source.isBlankFrom, hplace, List.all_eq_true] at hfrom
      exact hfrom

/-- In a chain of two differences, the first one is a token that no rule has read. -/
theorem differences_parse_sound
    : ∃ tree,
        let source := Source.ofString " a - (b) - c"
        (parse source).outcome = .matched tree
        ∧ tree.stop = 12
        ∧ (∃ before text after,
            source.chars = before ++ text ++ after
            ∧ IsBlank before
            ∧ IsBlank after
            ∧ byteLength before = tree.index
            ∧ source.slice? tree.index tree.stop = some text)
        ∧ Matches source tree := by
  have hstop
      : (parse (.ofString " a - (b) - c")).outcome.result?.map Token.stop = some 12 := by
    decide +kernel
  obtain ⟨tree, hresult, hstop⟩ := Option.map_eq_some_iff.mp hstop
  have hparse := Outcome.result?_eq_some_iff.mp hresult
  exact ⟨tree, hparse, hstop, parse_sound hparse⟩

end TokenGrammar.Arithmetic
