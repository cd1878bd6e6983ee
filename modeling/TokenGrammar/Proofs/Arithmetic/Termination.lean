import TokenGrammar.Proofs.Arithmetic.Soundness
import TokenGrammar.Proofs.Deepening
import TokenGrammar.Proofs.Entries

/-! The rules of arithmetic expressions come to an answer at every offset of every source. Whatever
they enter again, they enter behind a mark or an operator, and all else is of a lower rank.
-/

namespace TokenGrammar.Arithmetic

-----------------------------------------------------------------------------------------
-- Ranks
-----------------------------------------------------------------------------------------

namespace Rule

/-- The rules that a rule may enter again while it is read, itself or further up. -/
def recursive : Rule → List Rule
  | .paren => [.expression]
  | .product => [.product]
  | .sum => [.sum]
  | .assignment => [.expression]
  | _ => []

/-- The order of the rules: apart from recursion, rules only enter rules of a lower rank. -/
def rank : Rule → Nat
  | .number => 0
  | .identifier => 0
  | .paren => 0
  | .atom => 1
  | .product => 2
  | .assignment => 2
  | .sum => 3
  | .factor => 3
  | .expression => 4

theorem rank_lt (rule : Rule) : rule.rank < 5 := by
  cases rule <;> decide

/-- No rule contains a list, by a look at all their parts. -/
theorem list_not_mem_allParts (rule : Rule) {item : Grammar Rule Action}
    {delimiter ahead : Option (Grammar Rule Action)}
    : .list item delimiter ahead ∉ rule.grammar.allParts := by
  cases rule <;>
    simp [grammar, Grammar.parts, Grammar.partsOfAll, Grammar.partsInOrder, Grammar.parts?]

end Rule

-----------------------------------------------------------------------------------------
-- Entries
-----------------------------------------------------------------------------------------

section Entries

variable {source : Source} {depth index offset : Nat} {callee : Rule}

/-- A character with white space around it is never empty, so its pattern gets further on within
the source.
-/
theorem Frames.consumes {pattern : Pattern} {set : Regex.CharSet}
    {spansAt : Nat → List (Nat × Span)} (h : Frames pattern set spansAt) {token : Tree}
    (hreads : pattern.parser.Reads source index token)
    : index < token.stop ∧ token.stop ≤ source.size := by
  obtain ⟨before, char, after, rest, hrest, -, -, -, rfl⟩ := h.exists_of_reads hreads
  exact source.lt_stop_of_slice? (source.slice?_of_rest? hrest) (by simp)

/-- A mark gets further on within the source, since its pattern frames it. -/
theorem mark_consumes {written : String} {mark : Char} (hmark : ¬ Unicode.isSpace mark)
    {token : Tree} (hreads : (markPattern written mark).parser.Reads source index token)
    : index < token.stop ∧ token.stop ≤ source.size :=
  (markPattern_frames written hmark).consumes hreads

/-- What a rule reads starts where the rule was started, and so does not end before. -/
theorem le_stop_of_rule_reads {rule : Rule} {tree : Tree}
    (hreads : (language.rule depth rule).Reads source index tree)
    : index ≤ tree.stop :=
  Parser.le_stop_of_index_eq (soundWithin source depth rule index tree hreads).index_eq

/-- What a choice of rules reads does not end before it starts, since one of the rules has read
it.
-/
theorem le_stop_of_choice_reads {rules : List Rule} {tree : Tree}
    (hreads
      : (Parser.choice (rules.map (language.rule depth))).Reads source index tree)
    : index ≤ tree.stop := by
  obtain ⟨parser, hmem, hparser⟩ := Parser.exists_mem_of_choice_reads hreads
  obtain ⟨rule, -, rfl⟩ := List.mem_map.mp hmem
  exact le_stop_of_rule_reads hparser

/-- Where a rule is entered by another one, it is at a later offset if this may happen again, and
of a lower rank otherwise.
-/
def Descends (source : Source) (rule : Rule) (index : Nat) (callee : Rule) (offset : Nat)
    : Prop :=
  (callee ∈ rule.recursive → index < offset ∧ offset ≤ source.size)
  ∧ (callee ∉ rule.recursive → callee.rank < rule.rank ∧ index ≤ offset)

variable {rule : Rule}

theorem descends_of_lt (hlt : index < offset) (hle : offset ≤ source.size)
    (hcallee : callee ∈ rule.recursive ∨ callee.rank < rule.rank)
    : Descends source rule index callee offset :=
  ⟨fun _ => ⟨hlt, hle⟩,
    fun hnot => ⟨hcallee.resolve_left hnot, Nat.le_of_lt hlt⟩⟩

theorem descends_of_rank_lt (hnot : callee ∉ rule.recursive) (hrank : callee.rank < rule.rank)
    : Descends source rule index callee index :=
  ⟨fun hmem => absurd hmem hnot, fun _ => ⟨hrank, Nat.le_refl _⟩⟩

theorem choice_descends {rules : List Rule}
    (hrules : ∀ other ∈ rules, other ∉ rule.recursive ∧ other.rank < rule.rank)
    (h
      : (Grammar.choice (rules.map .rule)).Enters language.perform (language.rule depth) source
          callee offset index)
    : Descends source rule index callee offset := by
  obtain ⟨hmem, rfl⟩ := h.choice
  exact descends_of_rank_lt (hrules callee hmem).1 (hrules callee hmem).2

/-- The second operand of an operation stands behind the first one and the operator, which is
not empty, so the rule itself may be entered there.
-/
theorem second_descends (level : Level) {rules : List Rule} {left sign : Tree}
    (hrules : ∀ other ∈ rules, other ∈ rule.recursive ∨ other.rank < rule.rank)
    (hle : index ≤ left.stop) (hsign : level.pattern.parser.Reads source left.stop sign)
    (h
      : (Grammar.choice (rules.map .rule)).Enters language.perform (language.rule depth) source
          callee offset sign.stop)
    : Descends source rule index callee offset := by
  obtain ⟨hmem, rfl⟩ := h.choice
  obtain ⟨hlt, hsize⟩ := level.pattern_frames.consumes hsign
  exact descends_of_lt (Nat.lt_of_le_of_lt hle hlt) hsize (hrules callee hmem)

/-- A parenthesis enters the rule of expressions behind its opening mark. -/
theorem paren_descends
    (h
      : Rule.paren.grammar.Enters language.perform (language.rule depth) source callee offset
          index)
    : Descends source .paren index callee offset := by
  simp only [Rule.grammar, Grammar.enters_act_iff, Grammar.enters_sequence_cons_iff,
    Grammar.enters_ignored_iff, Grammar.enters_pattern_iff, Grammar.enters_rule_iff,
    Grammar.enters_sequence_nil_iff, and_false, exists_false, or_false, false_or] at h
  obtain ⟨_, hignored, rfl, rfl⟩ := h
  obtain ⟨front, hfront, rfl⟩ := Parser.ignored_reads_iff.mp hignored
  obtain ⟨hlt, hle⟩ := mark_consumes (by decide) hfront
  exact descends_of_lt hlt hle (by decide)

/-- A product enters the rule of atoms, and itself behind an operator. -/
theorem product_descends
    (h
      : Rule.product.grammar.Enters language.perform (language.rule depth) source callee offset
          index)
    : Descends source .product index callee offset := by
  simp only [Rule.grammar, Grammar.enters_act_iff, Grammar.enters_sequence_cons_iff,
    Grammar.enters_pattern_iff, Grammar.enters_rule_iff, Grammar.enters_sequence_nil_iff,
    and_false, exists_false, or_false, false_or] at h
  rcases h with ⟨rfl, rfl⟩ | ⟨left, hleft, sign, hsign, hsecond⟩
  · exact descends_of_rank_lt (by decide) (by decide)
  · have hle : index ≤ left.stop := le_stop_of_rule_reads hleft
    have hrules
        : ∀ other ∈ [Rule.product, .atom],
            other ∈ Rule.product.recursive ∨ other.rank < Rule.product.rank := by
      decide
    exact second_descends .product hrules hle hsign hsecond

/-- A sum enters rules of lower rank, and itself behind an operator. -/
theorem sum_descends
    (h
      : Rule.sum.grammar.Enters language.perform (language.rule depth) source callee offset
          index)
    : Descends source .sum index callee offset := by
  simp only [Rule.grammar, Grammar.enters_act_iff, Grammar.enters_sequence_cons_iff,
    Grammar.enters_pattern_iff, Grammar.enters_sequence_nil_iff, and_false, exists_false,
    or_false, false_or] at h
  rcases h with hfirst | ⟨left, hleft, sign, hsign, hsecond⟩
  · have hrules
        : ∀ other ∈ [Rule.product, .atom],
            other ∉ Rule.sum.recursive ∧ other.rank < Rule.sum.rank := by
      decide
    exact choice_descends hrules hfirst
  · have hchoice
        : (Parser.choice ([Rule.product, .atom].map (language.rule depth))).Reads source index
            left :=
      hleft
    have hrules
        : ∀ other ∈ [Rule.sum, .product, .atom],
            other ∈ Rule.sum.recursive ∨ other.rank < Rule.sum.rank := by
      decide
    exact second_descends .sum hrules (le_stop_of_choice_reads hchoice) hsign hsecond

/-- An assignment enters the rule of names, and that of expressions behind its sign. -/
theorem assignment_descends
    (h
      : Rule.assignment.grammar.Enters language.perform (language.rule depth) source callee
          offset index)
    : Descends source .assignment index callee offset := by
  simp only [Rule.grammar, Grammar.enters_act_iff, Grammar.enters_sequence_cons_iff,
    Grammar.enters_ignored_iff, Grammar.enters_pattern_iff, Grammar.enters_rule_iff,
    Grammar.enters_sequence_nil_iff, and_false, exists_false, or_false, false_or] at h
  rcases h with ⟨rfl, rfl⟩ | ⟨target, htarget, _, hignored, rfl, rfl⟩
  · exact descends_of_rank_lt (by decide) (by decide)
  · obtain ⟨equals, hequals, rfl⟩ := Parser.ignored_reads_iff.mp hignored
    obtain ⟨hlt, hsize⟩ := mark_consumes (by decide) hequals
    have hle : index ≤ target.stop := le_stop_of_rule_reads htarget
    exact descends_of_lt (Nat.lt_of_le_of_lt hle hlt) hsize (by decide)

/-- Whatever a rule enters, it descends to, by cases on the rule. -/
theorem enters_descends
    (h
      : rule.grammar.Enters language.perform (language.rule depth) source callee offset index)
    : Descends source rule index callee offset := by
  cases rule with
  | number | identifier => simp [Rule.grammar] at h
  | paren => exact paren_descends h
  | atom =>
      have hrules
          : ∀ other ∈ [Rule.number, .identifier, .paren],
              other ∉ Rule.atom.recursive ∧ other.rank < Rule.atom.rank := by
        decide
      exact choice_descends hrules h
  | product => exact product_descends h
  | sum => exact sum_descends h
  | assignment => exact assignment_descends h
  | factor =>
      have hrules
          : ∀ other ∈ [Rule.assignment, .atom],
              other ∉ Rule.factor.recursive ∧ other.rank < Rule.factor.rank := by
        decide
      exact choice_descends hrules h
  | expression =>
      have hrules
          : ∀ other ∈ [Rule.sum, .product, .factor],
              other ∉ Rule.expression.recursive ∧ other.rank < Rule.expression.rank := by
        decide
      exact choice_descends hrules h

end Entries

-----------------------------------------------------------------------------------------
-- Answers
-----------------------------------------------------------------------------------------

/-- A depth suffices for a rule if it counts the bytes that are left, and between them the ranks:
by induction on the depth, since each rule that is entered needs less.
-/
theorem rule_answers {source : Source} {depth index : Nat} {rule : Rule}
    (hdepth : 5 * (source.size - index) + rule.rank < depth)
    : (language.rule depth rule source index).outcome ≠ .unresolved := by
  induction depth generalizing rule index with
  | zero => omega
  | succ depth ih =>
      intro hnone
      have hlists : rule.grammar.ListsForward language.perform (language.rule depth) source :=
        fun _ _ _ hlist => absurd hlist rule.list_not_mem_allParts
      obtain ⟨callee, offset, henters, hcallee⟩ := Grammar.delegates hlists index hnone
      obtain ⟨hrecursive, hlower⟩ := enters_descends henters
      refine ih ?_ hcallee
      by_cases hmem : callee ∈ rule.recursive
      · obtain ⟨hlt, hle⟩ := hrecursive hmem
        have := callee.rank_lt
        omega
      · obtain ⟨hrank, hle⟩ := hlower hmem
        omega

/-- Each rule reads a tree or fails, at every offset of every source and as it would with any
greater depth. It enters rules behind some of the source if they may enter it again, and otherwise
rules of a lower rank no earlier than where it starts.
-/
theorem rule_terminates (source : Source) (rule : Rule) (index : Nat)
    : ((∃ tree, rule.parser.Reads source index tree)
        ∨ ∃ error, rule.parser.Fails source index error)
      ∧ (∀ depth,
          language.depth source.size ≤ depth
          → language.rule depth rule source index = rule.parser source index)
      ∧ ∀ depth callee offset,
          rule.grammar.Enters language.perform (language.rule depth) source callee offset index
          → (callee ∈ rule.recursive → index < offset ∧ offset ≤ source.size)
            ∧ (callee ∉ rule.recursive → callee.rank < rule.rank ∧ index ≤ offset) := by
  have hanswer : (rule.parser source index).outcome ≠ .unresolved := by
    refine rule_answers ?_
    have hdepth : language.depth source.size = 9 * (source.size + 2) := rfl
    have := rule.rank_lt
    omega
  exact ⟨Parser.reads_or_fails hanswer,
    fun depth hle => language.parserWithin_eq_of_le hle hanswer,
    fun depth callee offset => enters_descends⟩

end TokenGrammar.Arithmetic
