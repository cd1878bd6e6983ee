import TokenGrammar.Proofs.Combinators

/-! What runs and sequences read and how they fail. A run goes from token to token, so it is stated
as parsers that read one after the other.
-/

namespace TokenGrammar.Parser

variable {α : Type} {parser : Parser α} {parsers : List (Parser α)} {ahead : Option (Parser α)}
  {source : Source} {index cursor : Nat} {token : Token α} {error : ParseError}

/-- The parsers read the tokens one after the other, each starting where the one before it
stopped, up to a last stop.
-/
inductive Consecutive (source : Source)
    : List (Parser α) → Nat → List (Token α) → Nat → Prop where
  | nil {cursor : Nat} : Consecutive source [] cursor [] cursor
  | cons {parser : Parser α} {rest : List (Parser α)} {cursor stop : Nat} {token : Token α}
    {tokens : List (Token α)} (first : parser.Reads source cursor token)
    (others : Consecutive source rest token.stop tokens stop)
    : Consecutive source (parser :: rest) cursor (token :: tokens) stop

/-- Every token that parsers read one after the other was read by one of them, by induction on
the run.
-/
theorem Consecutive.exists_reads_of_mem {tokens : List (Token α)} {stop : Nat}
    (h : Consecutive source parsers cursor tokens stop)
    : ∀ token ∈ tokens, ∃ parser ∈ parsers, ∃ start, parser.Reads source start token := by
  induction h with
  | nil => simp
  | cons first _ ih =>
      refine List.forall_mem_cons.mpr ⟨⟨_, List.mem_cons_self .., _, first⟩, ?_⟩
      intro token hmem
      obtain ⟨parser, hparser, hreads⟩ := ih token hmem
      exact ⟨parser, List.mem_cons_of_mem _ hparser, hreads⟩

/-- The tokens that a run keeps. -/
def kept (tokens : List (Token α)) : List (Token α) :=
  tokens.filter fun token => !token.isIgnored

/-- What a run keeps of a token and others, by cases on whether the token is ignored. -/
theorem kept_cons (tokens : List (Token α))
    : kept (token :: tokens) = if token.isIgnored then kept tokens else token :: kept tokens := by
  cases h : token.isIgnored <;> simp [kept, h]

@[simp]
theorem kept_nil : kept ([] : List (Token α)) = [] :=
  rfl

theorem kept_cons_of_not_ignored {tokens : List (Token α)} (h : token.isIgnored = false)
    : kept (token :: tokens) = token :: kept tokens := by
  simp [kept_cons, h]

@[simp]
theorem kept_cons_ignore {tokens : List (Token α)} : kept (token.ignore :: tokens) = kept tokens :=
  rfl

theorem kept_append (tokens others : List (Token α))
    : kept (tokens ++ others) = kept tokens ++ kept others :=
  List.filter_append ..

theorem kept_eq_self {tokens : List (Token α)} (h : ∀ token ∈ tokens, token.isIgnored = false)
    : kept tokens = tokens := by
  simpa [kept] using h

/-- A run keeps all of three tokens, such as two operands and a sign, if none is ignored. -/
theorem kept_triple {first second third : Token α} (hfirst : first.isIgnored = false)
    (hsecond : second.isIgnored = false) (hthird : third.isIgnored = false)
    : kept [first, second, third] = [first, second, third] :=
  kept_eq_self (by simp [hfirst, hsecond, hthird])

theorem kept_eq_nil_iff {tokens : List (Token α)}
    : kept tokens = [] ↔ ∀ token ∈ tokens, token.isIgnored := by
  simp [kept, List.filter_eq_nil_iff]

theorem kept_ne_nil_iff {tokens : List (Token α)}
    : kept tokens ≠ [] ↔ ∃ token ∈ tokens, token.isIgnored = false := by
  simp [kept_eq_nil_iff]

theorem Run.keep_items (run : Run α)
    : (run.keep token).items
      = if token.isIgnored then run.items else token :: run.items := by
  unfold Run.keep
  split <;> rfl

theorem Run.keep_stop (run : Run α) : (run.keep token).stop = run.stop := by
  unfold Run.keep
  split <;> rfl

/-- A run that holds items is closed with a token that covers it, by cases on the items. -/
theorem Run.close_matched_iff {name : String} {onEmpty : Nat → ParseError} {run : Run α}
    : (run.close name onEmpty index).outcome = .matched token
      ↔ run.items ≠ []
        ∧ { index, size := run.stop - index, kind := .named name, value := .tokens run.items }
          = token := by
  unfold Run.close
  cases run.items <;> simp

/-- A run without items is closed with an error where it ends, by cases on the items. -/
theorem Run.close_failed_iff {name : String} {onEmpty : Nat → ParseError} {run : Run α}
    : (run.close name onEmpty index).outcome = .failed error
      ↔ run.items = [] ∧ onEmpty run.stop = error := by
  unfold Run.close
  cases run.items <;> simp

/-- To close a run always gives an answer, by cases on the items. -/
theorem Run.close_ne_unresolved {name : String} {onEmpty : Nat → ParseError} {run : Run α}
    : (run.close name onEmpty index).outcome ≠ .unresolved := by
  unfold Run.close
  cases run.items <;> simp

/-- The first parser of a run reads and the others go on, or it fails before the end of the source
where the lookahead matches.
-/
theorem runSequence_cons_matched_iff {run : Run α}
    : (runSequence ahead source (parser :: parsers) cursor).outcome = .matched run
      ↔ (∃ token later,
            parser.Reads source cursor token
            ∧ (runSequence ahead source parsers token.stop).outcome = .matched later
            ∧ later.keep token = run)
        ∨ cursor < source.size
          ∧ Finds ahead source cursor
          ∧ (∃ error, parser.Fails source cursor error)
          ∧ Run.empty cursor = run := by
  simp only [runSequence, Reply.outcome_fold_eq_matched_iff, Reply.outcome_map_eq_matched_iff]
  constructor
  · intro h
    rcases h with ⟨token, hfirst, later, hlater, hrun⟩ | ⟨error, hfirst, h⟩
    · exact Or.inl ⟨token, later, hfirst, hlater, hrun⟩
    · split at h
      case isTrue hsize => simp at h
      case isFalse hsize =>
        simp only [ifAhead_matched_iff, Reply.outcome_noting, Reply.outcome_matched,
          Outcome.matched.injEq, Reply.outcome_failed, reduceCtorEq, and_false, or_false] at h
        exact Or.inr ⟨by omega, h.1, ⟨error, hfirst⟩, h.2⟩
  · intro h
    rcases h with ⟨token, later, hfirst, hlater, hrun⟩ | ⟨hsize, hfinds, ⟨error, hfirst⟩, hrun⟩
    · exact Or.inl ⟨token, hfirst, later, hlater, hrun⟩
    · refine Or.inr ⟨error, hfirst, ?_⟩
      rw [if_neg (by omega), ifAhead_matched_iff]
      exact Or.inl ⟨hfinds, congrArg Outcome.matched hrun⟩

/-- The first parser of a run reads and the others fail, or it fails itself: unexpectedly at the
end of the source, else with its error where the lookahead misses.
-/
theorem runSequence_cons_failed_iff
    : (runSequence ahead source (parser :: parsers) cursor).outcome = .failed error
      ↔ (∃ token,
            parser.Reads source cursor token
            ∧ (runSequence ahead source parsers token.stop).outcome = .failed error)
        ∨ ∃ cause,
            parser.Fails source cursor cause
            ∧ (source.size ≤ cursor ∧ .unexpectedEnd cursor = error
              ∨ cursor < source.size ∧ Misses ahead source cursor ∧ cause = error) := by
  simp only [runSequence, Reply.outcome_fold_eq_failed_iff, Reply.outcome_map_eq_failed_iff]
  refine or_congr_right (exists_congr fun cause => and_congr_right fun _ => ?_)
  rcases Nat.lt_or_ge cursor source.size with hsize | hsize
  · rw [if_neg (by omega), ifAhead_failed_iff]
    simp [hsize, Nat.not_le.mpr hsize]
  · rw [if_pos hsize]
    simp [hsize, Nat.not_lt.mpr hsize]

/-- The first parser of a run comes to no answer or the others do not, or it fails and the
lookahead comes to none.
-/
theorem runSequence_cons_unresolved_iff
    : (runSequence ahead source (parser :: parsers) cursor).outcome = .unresolved
      ↔ (parser source cursor).outcome = .unresolved
        ∨ (∃ token,
            parser.Reads source cursor token
            ∧ (runSequence ahead source parsers token.stop).outcome = .unresolved)
        ∨ ∃ error,
            parser.Fails source cursor error
            ∧ cursor < source.size
            ∧ ∃ later ∈ ahead, (later source cursor).outcome = .unresolved := by
  simp only [runSequence, Reply.outcome_fold_eq_unresolved_iff,
    Reply.outcome_map_eq_unresolved_iff]
  refine or_congr_right (or_congr_right (exists_congr fun _ => and_congr_right fun _ => ?_))
  rcases Nat.lt_or_ge cursor source.size with hsize | hsize
  · rw [if_neg (by omega)]
    simp [hsize, ifAhead_unresolved_iff]
  · rw [if_pos hsize]
    simp [Nat.not_lt.mpr hsize]

/-- A run of parsers succeeds where all of them have read, or where one fails before the end of
the source and the lookahead matches, by induction on the parsers.
-/
theorem runSequence_matched_iff {run : Run α}
    : (runSequence ahead source parsers cursor).outcome = .matched run
      ↔ ∃ front back tokens,
          parsers = front ++ back
          ∧ Consecutive source front cursor tokens run.stop
          ∧ run.items = kept tokens
          ∧ (back = []
            ∨ run.stop < source.size
              ∧ Finds ahead source run.stop
              ∧ ∃ parser rest error,
                  back = parser :: rest ∧ parser.Fails source run.stop error) := by
  induction parsers generalizing cursor run with
  | nil =>
      simp only [runSequence, Reply.outcome_matched, Outcome.matched.injEq]
      constructor
      · intro h
        subst h
        exact ⟨[], [], [], rfl, .nil, rfl, Or.inl rfl⟩
      · intro h
        obtain ⟨front, back, tokens, hsplit, hrun, hitems, -⟩ := h
        obtain ⟨rfl, rfl⟩ := List.append_eq_nil_iff.mp hsplit.symm
        rcases run with ⟨items, stop⟩
        cases hrun
        simpa [Run.empty, kept] using hitems.symm
  | cons first rest ih =>
      rw [runSequence_cons_matched_iff]
      constructor
      · intro h
        rcases h with ⟨token, later, hfirst, hlater, rfl⟩ | ⟨hsize, hfinds, ⟨error, hfails⟩, rfl⟩
        · obtain ⟨front, back, tokens, rfl, hrun, hitems, hback⟩ := ih.mp hlater
          refine ⟨first :: front, back, token :: tokens, rfl, ?_, ?_, ?_⟩
          · exact .cons hfirst (by simpa only [Run.keep_stop] using hrun)
          · rw [Run.keep_items, kept_cons, hitems]
          · simpa only [Run.keep_stop] using hback
        · exact ⟨[], first :: rest, [], rfl, .nil, rfl,
            Or.inr ⟨hsize, hfinds, first, rest, error, rfl, hfails⟩⟩
      · intro h
        obtain ⟨front, back, tokens, hsplit, hrun, hitems, hback⟩ := h
        rcases run with ⟨items, stop⟩
        cases hrun with
        | nil =>
            rw [List.nil_append] at hsplit
            subst hsplit
            rcases hback with h | ⟨hsize, hfinds, parser, others, error, hcons, hfails⟩
            · contradiction
            · obtain ⟨rfl, rfl⟩ := List.cons.inj hcons
              refine Or.inr ⟨hsize, hfinds, ⟨error, hfails⟩, ?_⟩
              simpa [Run.empty, kept] using hitems.symm
        | @cons _ front _ _ token tokens hfirst hothers =>
            obtain ⟨rfl, rfl⟩ := List.cons.inj hsplit
            have hlater : (runSequence ahead source (front ++ back) token.stop).outcome
                = .matched ⟨kept tokens, stop⟩ :=
              ih.mpr ⟨front, back, tokens, rfl, hothers, rfl, hback⟩
            refine Or.inl ⟨token, ⟨kept tokens, stop⟩, hfirst, hlater, ?_⟩
            obtain rfl : items = kept (token :: tokens) := hitems
            simp only [Run.keep, kept_cons]
            split <;> rfl

/-- A run of parsers fails where one of them does: unexpectedly at the end of the source, else
with its error, unless the lookahead matches. By induction on the parsers.
-/
theorem runSequence_failed_iff
    : (runSequence ahead source parsers cursor).outcome = .failed error
      ↔ ∃ front parser back tokens stop cause,
          parsers = front ++ parser :: back
          ∧ Consecutive source front cursor tokens stop
          ∧ parser.Fails source stop cause
          ∧ (source.size ≤ stop ∧ .unexpectedEnd stop = error
            ∨ stop < source.size ∧ Misses ahead source stop ∧ cause = error) := by
  induction parsers generalizing cursor with
  | nil => simp [runSequence]
  | cons first rest ih =>
      rw [runSequence_cons_failed_iff]
      constructor
      · intro h
        rcases h with ⟨token, hfirst, hlater⟩ | ⟨cause, hfirst, h⟩
        · obtain ⟨front, parser, back, tokens, stop, cause, rfl, hrun, h⟩ := ih.mp hlater
          exact ⟨first :: front, parser, back, token :: tokens, stop, cause, rfl,
            .cons hfirst hrun, h⟩
        · exact ⟨[], first, rest, [], cursor, cause, rfl, .nil, hfirst, h⟩
      · intro h
        obtain ⟨front, parser, back, tokens, stop, cause, hsplit, hrun, hfails, h⟩ := h
        cases hrun with
        | nil =>
            obtain ⟨rfl, rfl⟩ := List.cons.inj hsplit
            exact Or.inr ⟨cause, hfails, h⟩
        | @cons _ front _ _ token tokens hfirst hothers =>
            obtain ⟨rfl, rfl⟩ := List.cons.inj hsplit
            have hlater := ih.mpr
              ⟨front, parser, back, tokens, stop, cause, rfl, hothers, hfails, h⟩
            exact Or.inl ⟨token, hfirst, hlater⟩

/-- A sequence reads the kept tokens of a successful run, at least one. -/
theorem sequence_reads_iff
    : (sequence parsers ahead).Reads source index token
      ↔ ∃ run,
          (runSequence ahead source parsers index).outcome = .matched run
          ∧ run.items ≠ []
          ∧ { index, size := run.stop - index, kind := .named "sequence",
              value := .tokens run.items }
            = token := by
  simp only [Reads, sequence, Reply.outcome_bind_eq_matched_iff, Run.close_matched_iff]

theorem sequence_fails_iff
    : (sequence parsers ahead).Fails source index error
      ↔ (∃ run,
            (runSequence ahead source parsers index).outcome = .matched run
            ∧ run.items = []
            ∧ .emptySequence run.stop = error)
        ∨ (runSequence ahead source parsers index).outcome = .failed error := by
  simp only [Fails, sequence, Reply.outcome_bind_eq_failed_iff, Run.close_failed_iff]

/-- A sequence without lookahead reads what all its parsers read one after the other, since none
of them may fail.
-/
theorem sequence_none_reads_iff
    : (sequence parsers none).Reads source index token
      ↔ ∃ tokens stop,
          Consecutive source parsers index tokens stop
          ∧ kept tokens ≠ []
          ∧ { index, size := stop - index, kind := .named "sequence",
              value := .tokens (kept tokens) }
            = token := by
  simp only [sequence_reads_iff, runSequence_matched_iff]
  constructor
  · intro h
    obtain ⟨run, ⟨front, back, tokens, rfl, hrun, hitems, hback⟩, hne, rfl⟩ := h
    rcases hback with rfl | ⟨-, hfinds, -⟩
    · rw [List.append_nil]
      exact ⟨tokens, run.stop, hrun, hitems ▸ hne, by rw [hitems]⟩
    · exact absurd hfinds not_finds_none
  · intro h
    obtain ⟨tokens, stop, hrun, hne, rfl⟩ := h
    exact ⟨⟨kept tokens, stop⟩,
      ⟨parsers, [], tokens, by simp, hrun, rfl, Or.inl rfl⟩, hne, rfl⟩

theorem consecutive_nil_iff {tokens : List (Token α)} {stop : Nat}
    : Consecutive source [] cursor tokens stop ↔ tokens = [] ∧ stop = cursor := by
  constructor
  · intro h
    cases h
    exact ⟨rfl, rfl⟩
  · rintro ⟨rfl, rfl⟩
    exact .nil

/-- The first parser reads the first token, and the others go on where it stops. -/
theorem consecutive_cons_iff {tokens : List (Token α)} {stop : Nat}
    : Consecutive source (parser :: parsers) cursor tokens stop
      ↔ ∃ token others,
          parser.Reads source cursor token
          ∧ Consecutive source parsers token.stop others stop
          ∧ tokens = token :: others := by
  constructor
  · intro h
    cases h with
    | cons first others => exact ⟨_, _, first, others, rfl⟩
  · rintro ⟨token, others, hfirst, hothers, rfl⟩
    exact .cons hfirst hothers

/-- Three parsers read three tokens one after the other, by taking them off one by one. -/
theorem consecutive_triple_iff {first second third : Parser α} {tokens : List (Token α)}
    {stop : Nat}
    : Consecutive source [first, second, third] cursor tokens stop
      ↔ ∃ left middle right,
          first.Reads source cursor left
          ∧ second.Reads source left.stop middle
          ∧ third.Reads source middle.stop right
          ∧ tokens = [left, middle, right]
          ∧ stop = right.stop := by
  simp only [consecutive_cons_iff, consecutive_nil_iff]
  constructor
  · rintro ⟨left, _, hleft, ⟨middle, _, hmiddle, ⟨right, _, hright, ⟨rfl, rfl⟩, rfl⟩, rfl⟩, rfl⟩
    exact ⟨left, middle, right, hleft, hmiddle, hright, rfl, rfl⟩
  · rintro ⟨left, middle, right, hleft, hmiddle, hright, rfl, rfl⟩
    exact ⟨left, _, hleft, ⟨middle, _, hmiddle, ⟨right, _, hright, ⟨rfl, rfl⟩, rfl⟩, rfl⟩, rfl⟩

/-- A sequence of three parsers without lookahead holds what it keeps of their tokens, which
they read one after the other.
-/
theorem sequence_triple_reads_iff {first second third : Parser α}
    : (sequence [first, second, third] none).Reads source index token
      ↔ ∃ left middle right,
          first.Reads source index left
          ∧ second.Reads source left.stop middle
          ∧ third.Reads source middle.stop right
          ∧ kept [left, middle, right] ≠ []
          ∧ { index, size := right.stop - index, kind := .named "sequence",
              value := .tokens (kept [left, middle, right]) }
            = token := by
  simp only [sequence_none_reads_iff, consecutive_triple_iff]
  constructor
  · intro h
    obtain ⟨_, _, ⟨left, middle, right, hleft, hmiddle, hright, rfl, rfl⟩, hne, rfl⟩ := h
    exact ⟨left, middle, right, hleft, hmiddle, hright, hne, rfl⟩
  · intro h
    obtain ⟨left, middle, right, hleft, hmiddle, hright, hne, rfl⟩ := h
    exact ⟨_, _, ⟨left, middle, right, hleft, hmiddle, hright, rfl, rfl⟩, hne, rfl⟩

/-- A sequence without lookahead fails where one of its parsers does, by cases on whether that
is before the end of the source.
-/
theorem exists_sequence_none_fails {parser : Parser α} {front back : List (Parser α)}
    {tokens : List (Token α)} {stop : Nat} {cause : ParseError}
    (hrun : Consecutive source front index tokens stop)
    (hfails : parser.Fails source stop cause)
    : ∃ error, (sequence (front ++ parser :: back) none).Fails source index error := by
  rcases Nat.lt_or_ge stop source.size with hsize | hsize
  · exact ⟨cause, sequence_fails_iff.mpr (Or.inr (runSequence_failed_iff.mpr
      ⟨front, parser, back, tokens, stop, cause, rfl, hrun, hfails,
        Or.inr ⟨hsize, misses_none, rfl⟩⟩))⟩
  · exact ⟨.unexpectedEnd stop, sequence_fails_iff.mpr (Or.inr (runSequence_failed_iff.mpr
      ⟨front, parser, back, tokens, stop, cause, rfl, hrun, hfails, Or.inl ⟨hsize, rfl⟩⟩))⟩

end TokenGrammar.Parser
