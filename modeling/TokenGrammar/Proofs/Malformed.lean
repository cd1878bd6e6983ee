import TokenGrammar.Proofs.Errors
import TokenGrammar.Proofs.Leaves
import TokenGrammar.Proofs.Lists

/-! Errors about malformed tokens, which actions raise that take tokens apart. An action is given
what the grammar of its rule reads, so these errors do not occur if that always fits.
-/

namespace TokenGrammar

variable {α : Type}

-----------------------------------------------------------------------------------------
-- Errors about malformed tokens
-----------------------------------------------------------------------------------------

/-- The error speaks of a token that an action could not take apart. -/
def ParseError.IsMalformed (error : ParseError) : Prop :=
  ∃ kind index, error = .custom ("malformed " ++ kind) index

/-- Neither the error nor any error among its causes, at any depth, speaks of a malformed token. -/
def ParseError.NoneMalformed (error : ParseError) : Prop :=
  ∀ part : ParseError, part.PartOf error → ¬ part.IsMalformed

namespace ParseError

variable {error : ParseError}

theorem noneMalformed_leaf (h : ¬ error.IsMalformed) (hcauses : error.causes = [])
    : error.NoneMalformed := by
  intro part hpart
  rwa [hpart.eq_of_causes_eq_nil hcauses]

/-- Only errors with a message of their own speak of malformed tokens, since these are made in
this way.
-/
theorem noneMalformed_of_kind_ne (h : error.kind ≠ .custom) (hcauses : error.causes = [])
    : error.NoneMalformed := by
  refine noneMalformed_leaf ?_ hcauses
  rintro ⟨kind, index, rfl⟩
  exact h rfl

theorem noneMalformed_alternatives {causes : List ParseError} {index : Nat}
    (h : ∀ cause ∈ causes, cause.NoneMalformed)
    : (alternatives causes index).NoneMalformed := by
  intro part hpart
  rcases partOf_alternatives_iff.mp hpart with rfl | ⟨inner, known, deeper⟩
  · rintro ⟨kind, index, hcustom⟩
    contradiction
  · exact h inner known part deeper

/-- An invalid number is no malformed token, for the two messages start differently. -/
theorem noneMalformed_invalidNumber (message : String) (index : Nat)
    : (custom ("invalid number: " ++ message) index).NoneMalformed := by
  refine noneMalformed_leaf ?_ rfl
  rintro ⟨kind, _, h⟩
  have htext := congrArg String.toList (ParseError.custom.inj h).1
  simp at htext

end ParseError

-----------------------------------------------------------------------------------------
-- Parsers
-----------------------------------------------------------------------------------------

namespace Parser

variable {source : Source} {parser : Parser α} {parsers : List (Parser α)}

/-- No error of the parser speaks of a malformed token, at any offset. -/
def NeverMalformed (source : Source) (parser : Parser α) : Prop :=
  ∀ index error, parser.Fails source index error → error.NoneMalformed

/-- Whatever the parser reads holds tokens that fit together. -/
def Retains (source : Source) (fits : List (Token α) → Prop) (parser : Parser α) : Prop :=
  ∀ index token,
    parser.Reads source index token → ∃ items, token.value = .tokens items ∧ fits items

theorem neverMalformed_pattern (expected : Pattern)
    : (expected.parser : Parser α).NeverMalformed source := by
  intro index error hfails
  obtain ⟨-, rfl⟩ := Pattern.fails_iff.mp hfails
  exact ParseError.noneMalformed_of_kind_ne nofun rfl

theorem neverMalformed_unresolved : NeverMalformed source (fun _ _ => .unresolved : Parser α) := by
  intro index error hfails
  contradiction

theorem NeverMalformed.ignored (h : parser.NeverMalformed source)
    : (ignored parser).NeverMalformed source :=
  fun _ _ hfails => h _ _ (ignored_fails_iff.mp hfails)

theorem neverMalformed_optional (parser : Parser α) : (optional parser).NeverMalformed source :=
  fun _ _ hfails => absurd hfails not_optional_fails

/-- A change of tokens adds no such errors if it does not reject what is read with one. -/
theorem NeverMalformed.refine {change : Token α → Except ParseError (Token α)}
    (h : parser.NeverMalformed source)
    (hchange
      : ∀ {index token error},
          parser.Reads source index token → change token = .error error → error.NoneMalformed)
    : (refine change parser).NeverMalformed source := by
  intro index error hfails
  rcases refine_fails_iff.mp hfails with ⟨token, hreads, herror⟩ | hinner
  · exact hchange hreads herror
  · exact h _ _ hinner

/-- Where what is read holds tokens that fit, and these are accepted, none of it is rejected, so
the errors are those of the parser.
-/
theorem NeverMalformed.refine_of_retains {fits : List (Token α) → Prop}
    {change : Token α → Except ParseError (Token α)} (h : parser.NeverMalformed source)
    (hretains : parser.Retains source fits)
    (haccepts
      : ∀ token items,
          token.value = .tokens items → fits items → ∃ changed, change token = .ok changed)
    : (Parser.refine change parser).NeverMalformed source := by
  refine h.refine fun {index token error} hreads herror => ?_
  obtain ⟨items, hvalue, hfits⟩ := hretains _ _ hreads
  obtain ⟨changed, hchanged⟩ := haccepts token items hvalue hfits
  rw [hchanged] at herror
  contradiction

theorem neverMalformed_choice (h : ∀ parser ∈ parsers, parser.NeverMalformed source)
    : (choice parsers).NeverMalformed source := by
  intro index error hfails
  obtain ⟨causes, hcauses, rfl⟩ := choice_fails_iff.mp hfails
  refine ParseError.noneMalformed_alternatives fun cause hmem => ?_
  obtain ⟨parser, hparser, hfails⟩ := exists_mem_of_mem_causes hcauses hmem
  exact h parser hparser _ _ hfails

/-- A sequence fails with an error of one of its parsers, at the end of the source or because it
is empty.
-/
theorem neverMalformed_sequence (ahead : Option (Parser α))
    (h : ∀ parser ∈ parsers, parser.NeverMalformed source)
    : (sequence parsers ahead).NeverMalformed source := by
  intro index error hfails
  rcases sequence_fails_iff.mp hfails with ⟨run, -, -, rfl⟩ | hrun
  · exact ParseError.noneMalformed_of_kind_ne nofun rfl
  · obtain ⟨front, parser, back, tokens, stop, cause, rfl, -, hcause, hor⟩ :=
      runSequence_failed_iff.mp hrun
    rcases hor with ⟨-, rfl⟩ | ⟨-, -, rfl⟩
    · exact ParseError.noneMalformed_of_kind_ne nofun rfl
    · exact h parser (by simp) _ _ hcause

/-- A sequence of three parsers fails with an error of one of them, or with one of its own. -/
theorem neverMalformed_triple {first second third : Parser α}
    (hfirst : first.NeverMalformed source) (hsecond : second.NeverMalformed source)
    (hthird : third.NeverMalformed source)
    : (sequence [first, second, third] none).NeverMalformed source :=
  neverMalformed_sequence none (by simp [hfirst, hsecond, hthird])

/-- The error of an item is one of the parser of the items, whichever round it is in, by
induction on the rounds.
-/
theorem ItemFails.exists_fails {item : Parser α} {delimiter ahead : Option (Parser α)}
    {cursor : Nat} {error : ParseError}
    (h : ItemFails item delimiter ahead source cursor error)
    : ∃ index, item.Fails source index error := by
  induction h with
  | here _ fails => exact ⟨_, fails⟩
  | next _ _ _ ih => exact ih

/-- A list fails with an error of its item, or because it is empty. -/
theorem neverMalformed_list {item : Parser α} (delimiter ahead : Option (Parser α))
    (h : item.NeverMalformed source)
    : (list item delimiter ahead).NeverMalformed source := by
  intro index error hfails
  rcases itemFails_or_of_list_fails hfails with hitem | ⟨tokens, stop, -, -, rfl⟩
  · obtain ⟨start, hstart⟩ := hitem.exists_fails
    exact h _ _ hstart
  · exact ParseError.noneMalformed_of_kind_ne nofun rfl

end Parser

end TokenGrammar
