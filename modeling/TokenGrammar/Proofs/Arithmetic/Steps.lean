import TokenGrammar.Proofs.Arithmetic.Advance
import TokenGrammar.Proofs.Arithmetic.Nesting
import TokenGrammar.Proofs.Arithmetic.Soundness

/-! Each rule of arithmetic expressions reads the tree of a rendered expression if the rules that it
enters read those of its parts, and alternatives that come earlier in an ordered choice fail, each
at a sign or mark that is not there.
-/

namespace TokenGrammar.Arithmetic

variable {source : Source} {index depth : Nat} {rest : List Char}

/-- The parser reads the tree, apart from positions, up to the rest. -/
def Completes (source : Source) (parser : Parser Node) (index : Nat) (rest : List Char)
    (expected : Tree)
    : Prop :=
  ∃ tree,
    parser.Reads source index tree
    ∧ unplaced tree = expected
    ∧ Reaches source tree.stop rest

/-- The parser fails. -/
def Rejects (source : Source) (parser : Parser Node) (index : Nat) : Prop :=
  ∃ error, parser.Fails source index error

/-- Of some rules, the first ones fail and the next one reads the tree. -/
structure Selects (source : Source) (depth index : Nat) (rest : List Char) (skipped : List Rule)
    (rule : Rule) (expected : Tree) : Prop where
  rejects : ∀ earlier ∈ skipped, Rejects source (language.rule depth earlier) index
  completes : Completes source (language.rule depth rule) index rest expected

/-- A choice of the rules reads what is selected of them, since those in front of it fail. -/
theorem Selects.choice {skipped rules later : List Rule} {rule : Rule} {expected : Tree}
    (h : Selects source depth index rest skipped rule expected)
    (hrules : rules = skipped ++ rule :: later)
    : Completes source (Parser.choice (rules.map (language.rule depth))) index rest expected := by
  obtain ⟨tree, hreads, hexpected, hreach⟩ := h.completes
  refine ⟨tree, ?_, hexpected, hreach⟩
  rw [Parser.choice_reads_iff, hrules, List.map_append, List.map_cons]
  refine ⟨_, _, _, rfl, ?_, hreads⟩
  intro parser hmem
  obtain ⟨earlier, hearlier, rfl⟩ := List.mem_map.mp hmem
  exact h.rejects earlier hearlier

section Atoms

variable {chars : List Char}

theorem number_rejects (hrest : source.rest? index = some chars)
    (h : ∀ char ∈ chars.head?, ¬ Regex.CharSet.digit.contains char)
    : Rejects source (language.rule (depth + 1) .number) index := by
  rw [rule_number]
  exact ⟨_, Parser.refine_fails_iff.mpr
    (Or.inr (Pattern.fails_of_refuses (numberPattern_refuses h) hrest))⟩

theorem identifier_rejects (hrest : source.rest? index = some chars)
    (h : ∀ char ∈ chars.head?, ¬ nameStart.contains char)
    : Rejects source (language.rule (depth + 1) .identifier) index := by
  rw [rule_identifier]
  exact ⟨_, Parser.refine_fails_iff.mpr
    (Or.inr (Pattern.fails_of_refuses (namePattern_refuses h) hrest))⟩

/-- A literal is read as its number, up to what separates it from the rest. -/
theorem number_completes (numeral : Numeral) (hfollows : Follows marks rest)
    (hrest : source.rest? index = some (numeral.render ++ rest))
    : Completes source (language.rule (depth + 1) .number) index rest
        (Atom.numeral numeral).tree := by
  obtain ⟨spans, htakes⟩ := numberPattern_takes numeral hfollows.separates
  have hvalue
      : Binary64.read
          (matchedText (numberPattern.tokenOf index numeral.render rest spans))
        = .ok numeral.value := by
    rw [matchedText_tokenOf, numeral.read_render]
  rw [rule_number]
  refine ⟨_, number_reads_iff.mpr
    ⟨_, _, Pattern.reads_of_takes htakes hrest, hvalue, rfl⟩, rfl, ?_⟩
  exact reaches_of_rest? (source.rest?_add hrest)

/-- A name is read as itself, up to what separates it from the rest. -/
theorem identifier_completes (name : Name) (hfollows : Follows marks rest)
    (hrest : source.rest? index = some (name.render ++ rest))
    : Completes source (language.rule (depth + 1) .identifier) index rest
        (Atom.name name).tree := by
  have htakes := namePattern_takes name hfollows.separates
  rw [rule_identifier]
  refine ⟨_, identifier_reads_iff.mpr ⟨_, Pattern.reads_of_takes htakes hrest, rfl⟩, ?_, ?_⟩
  · rw [matchedText_tokenOf]
    rfl
  · exact reaches_of_rest? (source.rest?_add hrest)

/-- A parenthesis is read as the expression in it, and takes the white space around its marks.
-/
theorem paren_completes {outside inside inside' outside' : Blank} {inner : Expression}
    (hinner
      : ∀ {offset},
          index < offset
          → Starts source offset
              (inner.render ++ (inside'.chars ++ ')' :: (outside'.chars ++ rest)))
          → Completes source (language.rule depth .expression) offset
              (inside'.chars ++ ')' :: (outside'.chars ++ rest)) inner.tree)
    (hstart
      : Starts source index
          ('('
            :: (inside.chars
              ++ (inner.render ++ (inside'.chars ++ ')' :: (outside'.chars ++ rest))))))
    : Completes source (language.rule (depth + 1) .paren) index rest
        (Atom.paren outside inside inner inside' outside').tree := by
  have hsound := soundWithin source depth
  have hopen : Reaches source index
      ([] ++ '(' :: (inside.chars
        ++ (inner.render ++ (inside'.chars ++ ')' :: (outside'.chars ++ rest))))) :=
    hstart.reaches
  obtain ⟨front, hfront, hlt, hinside⟩ := exists_mark_reads (by decide) (by simp [IsBlank]) hopen
  rw [starts_append_iff inside.isBlank] at hinside
  obtain ⟨tree, htree, htreeEq, hreach⟩ := hinner hlt hinside
  obtain ⟨back, hback, hltBack, houtside⟩ :=
    exists_mark_reads (by decide) inside'.isBlank hreach
  rw [starts_append_iff outside'.isBlank] at houtside
  have hindex := (hsound _ _ _ htree).index_eq
  have hle : index ≤ back.stop := by
    simp only [Token.stop] at *
    omega
  rw [rule_paren]
  refine ⟨_, (paren_reads_iff (hsound.keepsTokens .expression)).mpr
    ⟨front, tree, back, hfront, htree, hback, rfl⟩, ?_, ?_⟩
  · rw [Atom.tree, ← htreeEq]
    rfl
  · rw [Token.stop, Nat.add_sub_cancel' hle]
    exact houtside.reaches

/-- An atom that is a literal is read by the first rule for atoms. -/
theorem numeral_completes {numeral : Numeral} (hfollows : Follows marks rest)
    (hstart : Starts source index (numeral.render ++ rest))
    : Completes source (language.rule (depth + 2) .atom) index rest
        (Atom.numeral numeral).tree := by
  have hselects
      : Selects source (depth + 1) index rest [] .number (Atom.numeral numeral).tree :=
    ⟨by simp, number_completes numeral hfollows (rest?_of_starts_numeral hstart)⟩
  rw [rule_atom]
  exact hselects.choice rfl

/-- An atom that is a name is read by the second rule for atoms, since the first one rejects it.
-/
theorem name_completes {name : Name} (hfollows : Follows marks rest)
    (hstart : Starts source index (name.render ++ rest))
    : Completes source (language.rule (depth + 2) .atom) index rest (Atom.name name).tree := by
  have hrest := rest?_of_starts_name hstart
  have hhead : ∀ char ∈ (name.render ++ rest).head?, ¬ Regex.CharSet.digit.contains char := by
    intro char hchar
    obtain rfl := Option.some.inj hchar
    exact (startsName_of_isAlpha name.head_isStart).2.1
  have hnumber : Rejects source (language.rule (depth + 1) .number) index :=
    number_rejects hrest hhead
  have hselects
      : Selects source (depth + 1) index rest [.number] .identifier (Atom.name name).tree :=
    ⟨by simpa using hnumber, identifier_completes name hfollows hrest⟩
  rw [rule_atom]
  exact hselects.choice rfl

theorem identifier_rejects_paren {chars : List Char} (hstart : Starts source index ('(' :: chars))
    : Rejects source (language.rule (depth + 1) .identifier) index := by
  refine identifier_rejects (rest?_of_starts hstart (by decide)) ?_
  intro char hchar
  obtain rfl := Option.some.inj hchar
  decide

theorem number_rejects_paren {chars : List Char} (hstart : Starts source index ('(' :: chars))
    : Rejects source (language.rule (depth + 1) .number) index := by
  refine number_rejects (rest?_of_starts hstart (by decide)) ?_
  intro char hchar
  obtain rfl := Option.some.inj hchar
  decide

end Atoms

section Operations

variable {level : Level} {first second : Parser Node} {gap tail : List Char} {operator : Char}
  {left : Tree} {chain : Tree × List Link}

/-- Nested to the left, an operand and a chain make one chain, without regard to positions. -/
theorem binary_completes (hsound : SoundOperands source level first second)
    (hadmits : level.Admits chain) (hmem : operator ∈ level.operators) (hgap : IsBlank gap)
    (hleft : Completes source first index (gap ++ operator :: tail) left)
    (hright
      : ∀ {offset},
          index < offset
          → Starts source offset tail
          → Completes source second offset rest (nested level.kind chain))
    : Completes source (binary level first second) index rest
        (nested level.kind (left, (operator, chain.1) :: chain.2)) := by
  obtain ⟨leftTree, hleftReads, hleftEq, hleftReach⟩ := hleft
  obtain ⟨sign, hsign, hcaptured, hlt, hstart⟩ := Level.exists_reads hmem hgap hleftReach
  have hindex := (hsound.first hleftReads).index_eq
  have hlater : index < sign.stop := by
    simp only [Token.stop] at *
    omega
  obtain ⟨rightTree, hrightReads, hrightEq, hrightReach⟩ := hright hlater hstart
  have hchains := hsound.chains hleftReads hsign hrightReads hcaptured
  refine ⟨_, hsound.binary_reads_iff.mpr
    ⟨leftTree, sign, rightTree, operator, hleftReads, hsign, hrightReads, hcaptured, rfl⟩, ?_, ?_⟩
  · rw [unplaced_leftNested, hleftEq, hrightEq, links_nested hadmits]
  · rw [hchains.stop_eq]
    exact hrightReach

/-- There is no operation where no operator of the level follows the first operand, whose
sequence fails there.
-/
theorem binary_rejects (hleft : Completes source first index rest left)
    (hfollows : Follows level.followers rest)
    : Rejects source (binary level first second) index := by
  obtain ⟨tree, hreads, -, hreach⟩ := hleft
  obtain ⟨error, hfails⟩ := Level.exists_fails hreach hfollows
  obtain ⟨cause, hcause⟩ :=
    Parser.exists_sequence_none_fails (.cons hreads .nil) hfails
  exact ⟨cause, Parser.refine_fails_iff.mpr (Or.inr hcause)⟩

end Operations

section Assignments

theorem text?_of_unplaced {tree : Tree} {kind : Kind} {text : String}
    (h : unplaced tree = ⟨0, 0, kind, .text text⟩)
    : tree.value.text? = some text := by
  rcases tree with ⟨index, size, kind', value⟩
  cases value <;> simp_all [unplaced, unplacedValue, Value.text?]

/-- An assignment is read as its name and its right side, with the sign and the white space
around it between the two.
-/
theorem assignment_completes {name : Name} {before after : Blank} {right : Expression}
    (hright
      : ∀ {offset},
          index < offset
          → Starts source offset (right.render ++ rest)
          → Completes source (language.rule (depth + 1) .expression) offset rest right.tree)
    (hstart
      : Starts source index
          (name.render ++ (before.chars ++ '=' :: (after.chars ++ (right.render ++ rest)))))
    : Completes source (language.rule (depth + 2) .assignment) index rest
        (Expression.assignment name before after right).tree := by
  have hsound := soundWithin source (depth + 1)
  have hfollows
      : Follows marks (before.chars ++ '=' :: (after.chars ++ (right.render ++ rest))) :=
    follows_cons before.isBlank (by decide) (by decide)
  have htarget
      : Completes source (language.rule (depth + 1) .identifier) index
          (before.chars ++ '=' :: (after.chars ++ (right.render ++ rest)))
          (Atom.name name).tree :=
    identifier_completes name hfollows (rest?_of_starts_name hstart)
  obtain ⟨target, htarget, htargetEq, hreach⟩ := htarget
  obtain ⟨equals, hequals, hlt, hafter⟩ :=
    exists_mark_reads (by decide) before.isBlank hreach
  rw [starts_append_iff after.isBlank] at hafter
  have htargetIndex := (hsound _ _ _ htarget).index_eq
  have hlater : index < equals.stop := by
    simp only [Token.stop] at *
    omega
  obtain ⟨tree, htree, htreeEq, hstop⟩ := hright hlater hafter
  have hindex := (hsound _ _ _ htree).index_eq
  have hle : index ≤ tree.stop := by
    simp only [Token.stop] at *
    omega
  rw [rule_assignment]
  refine ⟨_, (assignment_reads_iff (hsound.keepsTokens .identifier)
    (hsound.keepsTokens .expression)).mpr
      ⟨target, equals, tree, htarget, hequals, htree, rfl⟩, ?_, ?_⟩
  · rw [text?_of_unplaced htargetEq, Expression.tree, ← htreeEq]
    rfl
  · rw [Token.stop, Nat.add_sub_cancel' hle]
    exact hstop

theorem assignment_rejects_of_identifier_rejects
    (h : Rejects source (language.rule depth .identifier) index)
    : Rejects source (language.rule (depth + 1) .assignment) index := by
  obtain ⟨error, hfails⟩ := h
  obtain ⟨cause, hcause⟩ := Parser.exists_sequence_none_fails .nil hfails
  rw [rule_assignment]
  exact ⟨cause, Parser.refine_fails_iff.mpr (Or.inr hcause)⟩

/-- An atom starts no assignment: it is no name, or no sign of equality follows it. By cases on
the atom.
-/
theorem assignment_rejects (atom : Atom) (hfollows : Follows closers rest)
    (hstart : Starts source index (atom.render ++ rest))
    : Rejects source (language.rule (depth + 2) .assignment) index := by
  cases atom with
  | numeral numeral =>
      refine assignment_rejects_of_identifier_rejects
        (identifier_rejects (rest?_of_starts_numeral hstart) ?_)
      obtain ⟨first, more, hrender, hfirst⟩ := numeral.exists_render_eq_cons
      intro char hchar
      rw [hrender] at hchar
      obtain rfl := Option.some.inj hchar
      exact hfirst.2.1
  | name name =>
      have hmarks : Follows marks rest :=
        hfollows.sum_of_closers.product_of_sum.marks_of_product
      have htarget
          : Completes source (language.rule (depth + 1) .identifier) index rest
              (Atom.name name).tree :=
        identifier_completes name hmarks (rest?_of_starts_name hstart)
      obtain ⟨target, htarget, -, hreach⟩ := htarget
      have hequals : Rejects source equalsPattern.parser target.stop :=
        exists_mark_fails (by decide) hreach hfollows (by decide)
      obtain ⟨error, hfails⟩ := hequals
      obtain ⟨cause, hcause⟩ := Parser.exists_sequence_none_fails (.cons htarget .nil)
        (Parser.ignored_fails_iff.mpr hfails)
      rw [rule_assignment]
      exact ⟨cause, Parser.refine_fails_iff.mpr (Or.inr hcause)⟩
  | paren outside inside inner inside' outside' =>
      rw [Atom.render, List.append_assoc, starts_append_iff outside.isBlank] at hstart
      exact assignment_rejects_of_identifier_rejects (identifier_rejects_paren hstart)

end Assignments

end TokenGrammar.Arithmetic
