import TokenGrammar.Proofs.Sequences

/-! What lists read and how they fail. Each round of a list reads an item and its delimiter. -/

namespace TokenGrammar.Parser

variable {α : Type} {parser : Parser α} {parsers : List (Parser α)} {ahead : Option (Parser α)}
  {source : Source} {index cursor : Nat} {token : Token α} {error : ParseError}

/-- From the cursor, the delimiter leads to the next offset; without one, that is the cursor. -/
def Passes (delimiter : Option (Parser α)) (source : Source) (cursor next : Nat) : Prop :=
  match delimiter with
  | none => cursor = next
  | some parser => ∃ token, parser.Reads source cursor token ∧ token.stop = next

/-- There is a delimiter and it fails. -/
def Stops (delimiter : Option (Parser α)) (source : Source) (cursor : Nat) : Prop :=
  ∃ parser ∈ delimiter, ∃ error, parser.Fails source cursor error

/-- Behind a delimiter, the list goes on at the next offset, by cases on whether there is one.
-/
theorem runDelimiter_some_iff {delimiter : Option (Parser α)} {next : Nat}
    : (runDelimiter delimiter source cursor).outcome = .matched (some next)
      ↔ Passes delimiter source cursor next := by
  cases delimiter <;> simp [runDelimiter, Passes, Reply.outcome_fold_eq_matched_iff]

/-- A list does not go on where a delimiter fails, by cases on whether there is one. -/
theorem runDelimiter_none_iff {delimiter : Option (Parser α)}
    : (runDelimiter delimiter source cursor).outcome = .matched none
      ↔ Stops delimiter source cursor := by
  cases delimiter <;> simp [runDelimiter, Stops, Reply.outcome_fold_eq_matched_iff]

theorem runDelimiter_ne_failed {delimiter : Option (Parser α)}
    : (runDelimiter delimiter source cursor).outcome ≠ .failed error := by
  cases delimiter <;> simp [runDelimiter, Reply.outcome_fold_eq_failed_iff]

theorem runDelimiter_unresolved_iff {delimiter : Option (Parser α)}
    : (runDelimiter delimiter source cursor).outcome = .unresolved
      ↔ ∃ parser ∈ delimiter, (parser source cursor).outcome = .unresolved := by
  cases delimiter <;> simp [runDelimiter, Reply.outcome_fold_eq_unresolved_iff]

section Lists

variable (item : Parser α) (delimiter ahead : Option (Parser α)) (source : Source)

/-- A round reads an item at the cursor and then the delimiter, up to the next offset, and no end
of the list is seen between the two.
-/
structure Round (cursor : Nat) (token : Token α) (next : Nat) : Prop where
  inside : cursor < source.size
  reads : item.Reads source cursor token
  misses : Misses ahead source token.stop
  passes : Passes delimiter source token.stop next

/-- A list reads the tokens of its items from a cursor on and stops: at the end of the source,
where the lookahead matches after an item, where the delimiter fails after one, or after a round
that consumes nothing.
-/
inductive Rounds : Nat → List (Token α) → Nat → Prop where
  | exhausted {cursor : Nat} (outside : source.size ≤ cursor) : Rounds cursor [] cursor
  | found {cursor : Nat} {token : Token α} (inside : cursor < source.size)
    (reads : item.Reads source cursor token) (finds : Finds ahead source token.stop)
    : Rounds cursor [token] token.stop
  | undelimited {cursor : Nat} {token : Token α} (inside : cursor < source.size)
    (reads : item.Reads source cursor token) (misses : Misses ahead source token.stop)
    (stops : Stops delimiter source token.stop)
    : Rounds cursor [token] token.stop
  | stalled {cursor : Nat} {token : Token α}
    (round : Round item delimiter ahead source cursor token cursor)
    : Rounds cursor [token] cursor
  | next {cursor next stop : Nat} {token : Token α} {tokens : List (Token α)}
    (round : Round item delimiter ahead source cursor token next)
    (progress : next ≠ cursor) (others : Rounds next tokens stop)
    : Rounds cursor (token :: tokens) stop

/-- After some rounds, an item fails before the end of the source. -/
inductive ItemFails : Nat → ParseError → Prop where
  | here {cursor : Nat} {error : ParseError} (inside : cursor < source.size)
    (fails : item.Fails source cursor error) : ItemFails cursor error
  | next {cursor next : Nat} {token : Token α} {error : ParseError}
    (round : Round item delimiter ahead source cursor token next)
    (progress : next ≠ cursor) (later : ItemFails next error)
    : ItemFails cursor error

end Lists

/-- Every token of a list was read by its item, by induction on the rounds. -/
theorem Rounds.exists_reads_of_mem {item : Parser α} {delimiter : Option (Parser α)}
    {tokens : List (Token α)} {stop : Nat}
    (h : Rounds item delimiter ahead source cursor tokens stop)
    : ∀ token ∈ tokens, ∃ start, item.Reads source start token := by
  induction h with
  | exhausted => simp
  | found _ reads | undelimited _ reads => simpa using ⟨_, reads⟩
  | stalled round => simpa using ⟨_, round.reads⟩
  | next round _ _ ih => exact List.forall_mem_cons.mpr ⟨⟨_, round.reads⟩, ih⟩

theorem runList_of_size_le {item : Parser α} {delimiter : Option (Parser α)} {rounds : Nat}
    (houtside : source.size ≤ cursor)
    : runList item delimiter ahead source rounds cursor = .matched (.empty cursor) := by
  cases rounds <;> rw [runList, if_pos houtside]

/-- Before the end of the source, a list reads an item. It ends where the lookahead matches, where
the delimiter fails or where nothing was consumed, and goes on behind the delimiter otherwise.
-/
theorem runList_succ_matched_iff {item : Parser α} {delimiter : Option (Parser α)}
    {rounds : Nat} {run : Run α} (hinside : cursor < source.size)
    : (runList item delimiter ahead source (rounds + 1) cursor).outcome = .matched run
      ↔ ∃ token later,
          item.Reads source cursor token
          ∧ later.keep token = run
          ∧ (Finds ahead source token.stop ∧ .empty token.stop = later
            ∨ Misses ahead source token.stop
              ∧ (Stops delimiter source token.stop ∧ .empty token.stop = later
                ∨ ∃ next,
                    Passes delimiter source token.stop next
                    ∧ (next = cursor ∧ .empty next = later
                      ∨ next ≠ cursor
                        ∧ (runList item delimiter ahead source rounds next).outcome
                          = .matched later))) := by
  rw [runList, if_neg (Nat.not_le.mpr hinside)]
  simp only [Reply.outcome_bind_eq_matched_iff, Reply.outcome_map_eq_matched_iff,
    ifAhead_matched_iff, Reply.outcome_noting, Reply.outcome_matched, Outcome.matched.injEq]
  refine exists_congr fun token => ?_
  rw [← exists_and_left]
  refine exists_congr fun later => and_congr_right fun _ => ?_
  rw [and_comm]
  refine and_congr_right fun _ => or_congr_right (and_congr_right fun _ => ?_)
  constructor
  · rintro ⟨next, hnext, hrun⟩
    cases next with
    | none => exact Or.inl ⟨runDelimiter_none_iff.mp hnext, Outcome.matched.inj hrun⟩
    | some next =>
        refine Or.inr ⟨next, runDelimiter_some_iff.mp hnext, ?_⟩
        dsimp only at hrun
        split at hrun
        case isTrue hstall => exact Or.inl ⟨hstall, Outcome.matched.inj hrun⟩
        case isFalse hprogress => exact Or.inr ⟨hprogress, hrun⟩
  · rintro (⟨hstops, rfl⟩ | ⟨next, hpasses, hnext⟩)
    · exact ⟨none, runDelimiter_none_iff.mpr hstops, rfl⟩
    · refine ⟨some next, runDelimiter_some_iff.mpr hpasses, ?_⟩
      dsimp only
      rcases hnext with ⟨hstall, rfl⟩ | ⟨hprogress, hrun⟩
      · rw [if_pos hstall]
        rfl
      · rw [if_neg hprogress]
        exact hrun

/-- Before the end of the source, a list comes to no answer if one of the parsers in its round does
not, or if the rounds after it do not.
-/
theorem runList_succ_unresolved_iff {item : Parser α} {delimiter : Option (Parser α)}
    {rounds : Nat} (hinside : cursor < source.size)
    : (runList item delimiter ahead source (rounds + 1) cursor).outcome = .unresolved
      ↔ (item source cursor).outcome = .unresolved
        ∨ ∃ token,
            item.Reads source cursor token
            ∧ ((∃ parser ∈ ahead, (parser source token.stop).outcome = .unresolved)
              ∨ Misses ahead source token.stop
                ∧ ((∃ parser ∈ delimiter, (parser source token.stop).outcome = .unresolved)
                  ∨ ∃ next,
                      Passes delimiter source token.stop next
                      ∧ next ≠ cursor
                      ∧ (runList item delimiter ahead source rounds next).outcome
                        = .unresolved)) := by
  rw [runList, if_neg (Nat.not_le.mpr hinside)]
  simp only [Reply.outcome_bind_eq_unresolved_iff, Reply.outcome_map_eq_unresolved_iff,
    ifAhead_unresolved_iff, Reply.outcome_noting, Reply.outcome_matched, reduceCtorEq, and_false,
    false_or, runDelimiter_unresolved_iff]
  refine or_congr_right (exists_congr fun token => and_congr_right fun _ =>
    or_congr_right (and_congr_right fun _ => or_congr_right ?_))
  constructor
  · rintro ⟨_ | next, hnext, hrun⟩
    · contradiction
    · dsimp only at hrun
      split at hrun
      case isTrue => contradiction
      case isFalse hprogress => exact ⟨next, runDelimiter_some_iff.mp hnext, hprogress, hrun⟩
  · rintro ⟨next, hpasses, hprogress, hrun⟩
    exact ⟨some next, runDelimiter_some_iff.mpr hpasses, by simpa [hprogress] using hrun⟩

/-- A run of a list that succeeds went through rounds and keeps their tokens, by induction on
the rounds that it may go through.
-/
theorem exists_rounds_of_runList {item : Parser α} {delimiter : Option (Parser α)}
    {rounds : Nat} {run : Run α}
    (h : (runList item delimiter ahead source rounds cursor).outcome = .matched run)
    : ∃ tokens,
        Rounds item delimiter ahead source cursor tokens run.stop
        ∧ run.items = kept tokens := by
  induction rounds generalizing cursor run with
  | zero =>
      unfold runList at h
      split at h
      case isTrue houtside =>
        obtain rfl := Outcome.matched.inj h
        exact ⟨[], .exhausted houtside, rfl⟩
      case isFalse => simp at h
  | succ rounds ih =>
      rcases Nat.lt_or_ge cursor source.size with hinside | houtside
      · obtain ⟨token, later, hreads, rfl, hlater⟩ := (runList_succ_matched_iff hinside).mp h
        have hkeep {tokens : List (Token α)} (hitems : later.items = kept tokens)
            : (later.keep token).items = kept (token :: tokens) := by
          rw [Run.keep_items, kept_cons, hitems]
        rw [Run.keep_stop]
        rcases hlater with ⟨hfinds, rfl⟩ | ⟨hmisses, ⟨hstops, rfl⟩ | ⟨next, hpasses, hnext⟩⟩
        · exact ⟨[token], .found hinside hreads hfinds, hkeep rfl⟩
        · exact ⟨[token], .undelimited hinside hreads hmisses hstops, hkeep rfl⟩
        · have hround : Round item delimiter ahead source cursor token next :=
            ⟨hinside, hreads, hmisses, hpasses⟩
          rcases hnext with ⟨rfl, rfl⟩ | ⟨hprogress, hrun⟩
          · exact ⟨[token], .stalled hround, hkeep rfl⟩
          · obtain ⟨tokens, hrounds, hitems⟩ := ih hrun
            exact ⟨token :: tokens, .next hround hprogress hrounds, hkeep hitems⟩
      · rw [runList_of_size_le houtside] at h
        obtain rfl := Outcome.matched.inj h
        exact ⟨[], .exhausted houtside, rfl⟩

/-- Before the end of the source, a list fails where its item does, or where the rounds do that
follow the first one.
-/
theorem runList_succ_failed_iff {item : Parser α} {delimiter : Option (Parser α)}
    {rounds : Nat} (hinside : cursor < source.size)
    : (runList item delimiter ahead source (rounds + 1) cursor).outcome = .failed error
      ↔ item.Fails source cursor error
        ∨ ∃ token next,
            Round item delimiter ahead source cursor token next
            ∧ next ≠ cursor
            ∧ (runList item delimiter ahead source rounds next).outcome = .failed error := by
  rw [runList, if_neg (Nat.not_le.mpr hinside)]
  simp only [Reply.outcome_bind_eq_failed_iff, Reply.outcome_map_eq_failed_iff,
    ifAhead_failed_iff, Reply.outcome_noting, Reply.outcome_matched, reduceCtorEq, and_false,
    false_or, runDelimiter_ne_failed, or_false]
  constructor
  · rintro (⟨token, hreads, hmisses, next, hnext, hrun⟩ | hfails)
    · cases next with
      | none => contradiction
      | some next =>
          dsimp only at hrun
          split at hrun
          case isTrue => contradiction
          case isFalse hprogress =>
            exact Or.inr ⟨token, next,
              ⟨hinside, hreads, hmisses, runDelimiter_some_iff.mp hnext⟩, hprogress, hrun⟩
    · exact Or.inl hfails
  · rintro (hfails | ⟨token, next, round, hprogress, hrun⟩)
    · exact Or.inr hfails
    · refine Or.inl ⟨token, round.reads, round.misses, some next,
        runDelimiter_some_iff.mpr round.passes, ?_⟩
      simpa only [if_neg hprogress] using hrun

/-- A run of a list only fails with the error of an item, by induction on the rounds that it may
go through.
-/
theorem itemFails_of_runList {item : Parser α} {delimiter : Option (Parser α)}
    {rounds : Nat}
    (h : (runList item delimiter ahead source rounds cursor).outcome = .failed error)
    : ItemFails item delimiter ahead source cursor error := by
  induction rounds generalizing cursor with
  | zero =>
      unfold runList at h
      split at h <;> simp at h
  | succ rounds ih =>
      rcases Nat.lt_or_ge cursor source.size with hinside | houtside
      · rcases (runList_succ_failed_iff hinside).mp h with hfails | ⟨_, _, round, hprogress, hrun⟩
        · exact .here hinside hfails
        · exact .next round hprogress (ih hrun)
      · rw [runList_of_size_le houtside] at h
        simp at h

/-- The token of a list has the kept tokens of its rounds, at least one, since a run without
items is not closed with a token.
-/
theorem exists_rounds_of_list_reads {item : Parser α} {delimiter : Option (Parser α)}
    (h : (list item delimiter ahead).Reads source index token)
    : ∃ tokens stop,
        Rounds item delimiter ahead source index tokens stop
        ∧ kept tokens ≠ []
        ∧ { index, size := stop - index, kind := .named "list",
            value := .tokens (kept tokens) }
          = token := by
  simp only [Reads, list, Reply.outcome_bind_eq_matched_iff, Run.close_matched_iff] at h
  obtain ⟨run, hrun, hne, rfl⟩ := h
  obtain ⟨tokens, hrounds, hitems⟩ := exists_rounds_of_runList hrun
  exact ⟨tokens, run.stop, hrounds, hitems ▸ hne, by rw [hitems]⟩

/-- A list fails with the error of an item, or if its rounds keep no token, by cases on whether
the run failed or its closing.
-/
theorem itemFails_or_of_list_fails {item : Parser α} {delimiter : Option (Parser α)}
    (h : (list item delimiter ahead).Fails source index error)
    : ItemFails item delimiter ahead source index error
      ∨ ∃ tokens stop,
          Rounds item delimiter ahead source index tokens stop
          ∧ kept tokens = []
          ∧ .emptyList stop = error := by
  simp only [Fails, list, Reply.outcome_bind_eq_failed_iff, Run.close_failed_iff] at h
  rcases h with ⟨run, hrun, hnil, rfl⟩ | hrun
  · obtain ⟨tokens, hrounds, hitems⟩ := exists_rounds_of_runList hrun
    exact Or.inr ⟨tokens, run.stop, hrounds, hitems ▸ hnil, rfl⟩
  · exact Or.inl (itemFails_of_runList hrun)

end TokenGrammar.Parser
