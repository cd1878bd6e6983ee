import TokenGrammar.Proofs.Forward

/-! What lists do, step by step. A list alternates its item with its delimiter, each started where
the one before it stopped, until one of four conditions holds or an item fails. Each round that
goes on consumes a byte at least, so there are at most as many items as bytes.
-/

namespace TokenGrammar.Parser

variable {α : Type}

-----------------------------------------------------------------------------------------
-- Where lists go on, stop and wait
-----------------------------------------------------------------------------------------

section Relations

variable (item : Parser α) (delimiter ahead : Option (Parser α)) (source : Source)

/-- Rounds lead from one cursor to another, over the tokens of their items, and after none of them
is there a reason to stop: the source is not exhausted before an item, the lookahead misses after
it, the delimiter reads, and the two together consume something.
-/
inductive LeadsTo : Nat → List (Token α) → Nat → Prop where
  | refl {cursor : Nat} : LeadsTo cursor [] cursor
  | next {start next cursor : Nat} {token : Token α} {tokens : List (Token α)}
    (round : Round item delimiter ahead source start token next) (progress : next ≠ start)
    (others : LeadsTo next tokens cursor)
    : LeadsTo start (token :: tokens) cursor

/-- After the rounds that lead there, the list attempts an item at the cursor. -/
structure Attempts (index : Nat) (tokens : List (Token α)) (cursor : Nat) : Prop where
  leads : LeadsTo item delimiter ahead source index tokens cursor
  inside : cursor < source.size

/-- With the round at the cursor, the list comes to its stop: at once at the end of the source, or
after one more item, where the lookahead matches, where the delimiter fails, or where the item and
the delimiter together have consumed nothing.
-/
inductive StopsAt : Nat → List (Token α) → Nat → Prop where
  | exhausted {cursor : Nat} (outside : source.size ≤ cursor) : StopsAt cursor [] cursor
  | found {cursor : Nat} {token : Token α} (inside : cursor < source.size)
    (reads : item.Reads source cursor token) (finds : Finds ahead source token.stop)
    : StopsAt cursor [token] token.stop
  | undelimited {cursor : Nat} {token : Token α} (inside : cursor < source.size)
    (reads : item.Reads source cursor token) (misses : Misses ahead source token.stop)
    (stops : Stops delimiter source token.stop)
    : StopsAt cursor [token] token.stop
  | stalled {cursor : Nat} {token : Token α}
    (round : Round item delimiter ahead source cursor token cursor)
    : StopsAt cursor [token] cursor

/-- In the round at the cursor, a parser is started that comes to no answer. -/
inductive WaitsAt (cursor : Nat) : Prop where
  | item (inside : cursor < source.size)
    (waits : (item source cursor).outcome = .unresolved)
  | ahead {parser : Parser α} {token : Token α} (inside : cursor < source.size)
    (reads : item.Reads source cursor token) (present : parser ∈ ahead)
    (waits : (parser source token.stop).outcome = .unresolved)
  | delimiter {parser : Parser α} {token : Token α} (inside : cursor < source.size)
    (reads : item.Reads source cursor token) (misses : Misses ahead source token.stop)
    (present : parser ∈ delimiter)
    (waits : (parser source token.stop).outcome = .unresolved)

end Relations

variable {item : Parser α} {delimiter ahead : Option (Parser α)} {source : Source}
  {index cursor stop rounds : Nat} {token : Token α} {tokens last : List (Token α)}
  {error : ParseError}

/-- No parser is started at the end of the source, by cases on which one waits. -/
theorem WaitsAt.inside (h : WaitsAt item delimiter ahead source cursor) : cursor < source.size := by
  cases h with
  | item inside | ahead inside | delimiter inside => exact inside

/-- A round is determined by where it starts, for a parser comes to one outcome only. -/
theorem Round.unique {token' : Token α} {next next' : Nat}
    (h : Round item delimiter ahead source cursor token next)
    (h' : Round item delimiter ahead source cursor token' next')
    : token = token' ∧ next = next' := by
  obtain rfl : token = token' := Outcome.matched.inj (h.reads.symm.trans h'.reads)
  have hpasses := runDelimiter_some_iff.mpr h.passes
  have hpasses' := runDelimiter_some_iff.mpr h'.passes
  exact ⟨rfl, Option.some.inj (Outcome.matched.inj (hpasses.symm.trans hpasses'))⟩

/-- So many rounds lead to one cursor only, by induction on them. -/
theorem LeadsTo.unique {tokens' : List (Token α)} {cursor' : Nat}
    (h : LeadsTo item delimiter ahead source index tokens cursor)
    (h' : LeadsTo item delimiter ahead source index tokens' cursor')
    (hlength : tokens.length = tokens'.length)
    : cursor = cursor' := by
  induction h generalizing tokens' with
  | refl =>
      cases h' with
      | refl => rfl
      | next => simp at hlength
  | next round _ _ ih =>
      cases h' with
      | refl => simp at hlength
      | next round' _ others' =>
          obtain ⟨-, rfl⟩ := round.unique round'
          exact ih others' (by simpa using hlength)

/-- The rounds of a list are those that lead to a cursor and the one with which it stops there,
by induction on them in both directions.
-/
theorem rounds_iff
    : Rounds item delimiter ahead source index tokens stop
      ↔ ∃ front cursor last,
          LeadsTo item delimiter ahead source index front cursor
          ∧ StopsAt item delimiter ahead source cursor last stop
          ∧ tokens = front ++ last := by
  constructor
  · intro h
    induction h with
    | exhausted outside => exact ⟨[], _, [], .refl, .exhausted outside, rfl⟩
    | found inside reads finds => exact ⟨[], _, _, .refl, .found inside reads finds, rfl⟩
    | undelimited inside reads misses stops =>
        exact ⟨[], _, _, .refl, .undelimited inside reads misses stops, rfl⟩
    | stalled round => exact ⟨[], _, _, .refl, .stalled round, rfl⟩
    | @next _ _ _ token _ round progress _ ih =>
        obtain ⟨front, cursor, last, hleads, hstops, rfl⟩ := ih
        exact ⟨token :: front, cursor, last, .next round progress hleads, hstops, rfl⟩
  · rintro ⟨front, cursor, last, hleads, hstops, rfl⟩
    induction hleads with
    | refl =>
        cases hstops with
        | exhausted outside => exact .exhausted outside
        | found inside reads finds => exact .found inside reads finds
        | undelimited inside reads misses stops => exact .undelimited inside reads misses stops
        | stalled round => exact .stalled round
    | next round progress _ ih => exact .next round progress (ih hstops)

/-- An item that fails does so at a cursor to which rounds lead, by induction on them in both
directions.
-/
theorem itemFails_iff
    : ItemFails item delimiter ahead source index error
      ↔ ∃ tokens cursor,
          Attempts item delimiter ahead source index tokens cursor
          ∧ item.Fails source cursor error := by
  constructor
  · intro h
    induction h with
    | here inside fails => exact ⟨[], _, ⟨.refl, inside⟩, fails⟩
    | next round progress _ ih =>
        obtain ⟨tokens, cursor, ⟨hleads, inside⟩, hfails⟩ := ih
        exact ⟨_, cursor, ⟨.next round progress hleads, inside⟩, hfails⟩
  · rintro ⟨tokens, cursor, ⟨hleads, inside⟩, hfails⟩
    induction hleads with
    | refl => exact .here inside hfails
    | next round progress _ ih => exact .next round progress (ih hfails inside)

-----------------------------------------------------------------------------------------
-- Progress
-----------------------------------------------------------------------------------------

/-- Each round that goes on consumes a byte at least, so rounds lead no less far than there are
of them, by induction on them.
-/
theorem LeadsTo.add_length_le (h : LeadsTo item delimiter ahead source index tokens cursor)
    (hitem : item.Forward source) (hdelimiter : ∀ parser ∈ delimiter, parser.Forward source)
    : index + tokens.length ≤ cursor := by
  induction h with
  | refl => exact Nat.le_refl _
  | next round progress _ ih =>
      have := round.lt_next progress hitem hdelimiter
      rw [List.length_cons]
      omega

/-- A list attempts no more items than there are bytes left, since each round before has
consumed one.
-/
theorem Attempts.length_lt (h : Attempts item delimiter ahead source index tokens cursor)
    (hitem : item.Forward source) (hdelimiter : ∀ parser ∈ delimiter, parser.Forward source)
    : tokens.length < source.size - index := by
  have := h.leads.add_length_le hitem hdelimiter
  have := h.inside
  omega

-----------------------------------------------------------------------------------------
-- What the relations say about a run
-----------------------------------------------------------------------------------------

section Runs

variable (hitem : item.Forward source)
  (hdelimiter : ∀ parser ∈ delimiter, parser.Forward source)

include hitem hdelimiter

/-- A list fails with the error of an item that does, whichever round it is in, by induction on
the rounds before it.
-/
theorem runList_of_itemFails (h : ItemFails item delimiter ahead source cursor error)
    (hrounds : source.size - cursor ≤ rounds)
    : (runList item delimiter ahead source rounds cursor).outcome = .failed error := by
  induction h generalizing rounds with
  | here inside fails =>
      obtain ⟨rounds, rfl, -⟩ := exists_rounds_left inside hrounds
      exact (runList_succ_failed_iff inside).mpr (Or.inl fails)
  | next round progress _ ih =>
      obtain ⟨rounds, rfl, hleft⟩ := exists_rounds_left round.inside hrounds
      have hlater := ih (hleft _ (round.lt_next progress hitem hdelimiter))
      exact (runList_succ_failed_iff round.inside).mpr (Or.inr ⟨_, _, round, progress, hlater⟩)

/-- A list comes to no answer where a parser in one of its rounds comes to none: it has rounds
enough, since each that goes on consumes a byte.
-/
theorem runList_unresolved_iff (hrounds : source.size - cursor ≤ rounds)
    : (runList item delimiter ahead source rounds cursor).outcome = .unresolved
      ↔ ∃ tokens middle,
          LeadsTo item delimiter ahead source cursor tokens middle
          ∧ WaitsAt item delimiter ahead source middle := by
  constructor
  · intro h
    induction rounds generalizing cursor with
    | zero =>
        rw [runList_of_size_le (by omega)] at h
        contradiction
    | succ rounds ih =>
        rcases Nat.lt_or_ge cursor source.size with inside | outside
        · rcases (runList_succ_unresolved_iff inside).mp h with hwaits | ⟨token, hreads, hlater⟩
          · exact ⟨[], cursor, .refl, .item inside hwaits⟩
          · rcases hlater with ⟨parser, hparser, hwaits⟩ | ⟨hmisses, hlater⟩
            · exact ⟨[], cursor, .refl, .ahead inside hreads hparser hwaits⟩
            · rcases hlater with ⟨parser, hparser, hwaits⟩ | ⟨next, hpasses, hprogress, hrun⟩
              · exact ⟨[], cursor, .refl, .delimiter inside hreads hmisses hparser hwaits⟩
              · have round : Round item delimiter ahead source cursor token next :=
                  ⟨inside, hreads, hmisses, hpasses⟩
                have hnext := round.lt_next hprogress hitem hdelimiter
                obtain ⟨tokens, middle, hleads, hwaits⟩ := ih (by omega) hrun
                exact ⟨token :: tokens, middle, .next round hprogress hleads, hwaits⟩
        · rw [runList_of_size_le outside] at h
          contradiction
  · rintro ⟨tokens, middle, hleads, hwaits⟩
    induction hleads generalizing rounds with
    | refl =>
        obtain ⟨rounds, rfl, -⟩ := exists_rounds_left hwaits.inside hrounds
        refine (runList_succ_unresolved_iff hwaits.inside).mpr ?_
        cases hwaits with
        | item _ waits => exact Or.inl waits
        | ahead _ reads present waits => exact Or.inr ⟨_, reads, Or.inl ⟨_, present, waits⟩⟩
        | delimiter _ reads misses present waits =>
            exact Or.inr ⟨_, reads, Or.inr ⟨misses, Or.inl ⟨_, present, waits⟩⟩⟩
    | next round progress _ ih =>
        obtain ⟨rounds, rfl, hleft⟩ := exists_rounds_left round.inside hrounds
        have hlater := ih (hleft _ (round.lt_next progress hitem hdelimiter)) hwaits
        refine (runList_succ_unresolved_iff round.inside).mpr
          (Or.inr ⟨_, round.reads, Or.inr ?_⟩)
        exact ⟨round.misses, Or.inr ⟨_, round.passes, progress, hlater⟩⟩

/-- A list fails with the error of an item that does, or where it stops without a token to keep,
by cases on whether its run fails.
-/
theorem list_fails_iff
    : (list item delimiter ahead).Fails source index error
      ↔ (∃ tokens cursor,
            Attempts item delimiter ahead source index tokens cursor
            ∧ item.Fails source cursor error)
        ∨ ∃ tokens cursor last stop,
            LeadsTo item delimiter ahead source index tokens cursor
            ∧ StopsAt item delimiter ahead source cursor last stop
            ∧ kept (tokens ++ last) = []
            ∧ .emptyList stop = error := by
  rw [← itemFails_iff]
  constructor
  · intro h
    refine (itemFails_or_of_list_fails h).imp_right ?_
    rintro ⟨tokens, stop, hrounds, hkept, rfl⟩
    obtain ⟨front, cursor, last, hleads, hstops, rfl⟩ := rounds_iff.mp hrounds
    exact ⟨front, cursor, last, stop, hleads, hstops, hkept, rfl⟩
  · intro h
    refine Reply.outcome_bind_eq_failed_iff.mpr ?_
    rcases h with hitemFails | ⟨front, cursor, last, stop, hleads, hstops, hkept, rfl⟩
    · exact Or.inr (runList_of_itemFails hitem hdelimiter hitemFails (Nat.le_refl _))
    · have hrounds : Rounds item delimiter ahead source index (front ++ last) stop :=
        rounds_iff.mpr ⟨front, cursor, last, hleads, hstops, rfl⟩
      exact Or.inl ⟨⟨kept (front ++ last), stop⟩,
        runList_of_rounds hrounds hitem hdelimiter (Nat.le_refl _),
        Run.close_failed_iff.mpr ⟨hkept, rfl⟩⟩

/-- A list reads up to where it stops, with the tokens that it keeps, since its rounds are those
that lead there and the last one.
-/
theorem list_reads_iff
    : (list item delimiter ahead).Reads source index token
      ↔ ∃ tokens cursor last stop,
          LeadsTo item delimiter ahead source index tokens cursor
          ∧ StopsAt item delimiter ahead source cursor last stop
          ∧ kept (tokens ++ last) ≠ []
          ∧ token.index = index
          ∧ token.stop = stop
          ∧ token.kind = .named "list"
          ∧ token.value = .tokens (kept (tokens ++ last)) := by
  constructor
  · intro h
    obtain ⟨tokens, stop, hrounds, hkept, rfl⟩ := exists_rounds_of_list_reads h
    have hle := hrounds.le_stop hitem hdelimiter
    obtain ⟨front, cursor, last, hleads, hstops, rfl⟩ := rounds_iff.mp hrounds
    exact ⟨front, cursor, last, stop, hleads, hstops, hkept, rfl, Nat.add_sub_cancel' hle, rfl, rfl⟩
  · rintro ⟨front, cursor, last, stop, hleads, hstops, hkept, hindex, hstop, hkind, hvalue⟩
    have hrounds : Rounds item delimiter ahead source index (front ++ last) stop :=
      rounds_iff.mpr ⟨front, cursor, last, hleads, hstops, rfl⟩
    have hreads := list_reads_of_rounds hrounds hitem hdelimiter hkept
    have hsize : token.size = stop - index := by
      rw [← hstop, ← hindex, Token.stop, Nat.add_sub_cancel_left]
    rw [← hsize, ← hkind, ← hvalue] at hreads
    subst hindex
    cases token
    exact hreads

end Runs

/-- A list looks at its item nowhere but where it attempts one, so another item that behaves alike
there makes no difference, not even to the events.
-/
theorem runList_congr {other : Parser α}
    (h
      : ∀ tokens middle,
          Attempts item delimiter ahead source cursor tokens middle
          → other source middle = item source middle)
    : runList other delimiter ahead source rounds cursor
      = runList item delimiter ahead source rounds cursor := by
  induction rounds generalizing cursor with
  | zero => rfl
  | succ rounds ih =>
      rcases Nat.lt_or_ge cursor source.size with inside | outside
      · rw [runList, runList, if_neg (Nat.not_le.mpr inside), if_neg (Nat.not_le.mpr inside),
          h [] cursor ⟨.refl, inside⟩]
        refine Reply.bind_congr fun token hreads => congrArg _ ?_
        refine ifAhead_congr fun hmisses => Reply.bind_congr fun next hnext => ?_
        cases next with
        | none => rfl
        | some next =>
            dsimp only
            split
            case isTrue => rfl
            case isFalse progress =>
              have round : Round item delimiter ahead source cursor token next :=
                ⟨inside, hreads, hmisses, runDelimiter_some_iff.mp hnext⟩
              refine ih fun tokens middle hattempts => ?_
              exact h _ middle ⟨.next round progress hattempts.leads, hattempts.inside⟩
      · rw [runList_of_size_le outside, runList_of_size_le outside]

-----------------------------------------------------------------------------------------
-- What lists do
-----------------------------------------------------------------------------------------

/-- What a list does if neither its item nor its delimiter steps back. It attempts an item only
after rounds that all went on, for each number of rounds at one cursor at most, and as many as
there are bytes left at most; elsewhere the item has no influence on it. It fails with the error of
an item that does. Where it stops instead, it spans all that was consumed and holds the tokens of
all items that are not ignored, or fails if there are none. It comes to no answer only if a parser
that it starts comes to none.
-/
theorem list_follows_rounds (ahead : Option (Parser α)) (index : Nat)
    (hitem : item.Forward source)
    (hdelimiter : ∀ parser ∈ delimiter, parser.Forward source)
    : (∀ tokens cursor,
        Attempts item delimiter ahead source index tokens cursor
        → tokens.length < source.size - index
          ∧ ∀ tokens' cursor',
              Attempts item delimiter ahead source index tokens' cursor'
              → tokens'.length = tokens.length
              → cursor' = cursor)
      ∧ (∀ other : Parser α,
          (∀ tokens cursor,
            Attempts item delimiter ahead source index tokens cursor
            → other source cursor = item source cursor)
          → list other delimiter ahead source index = list item delimiter ahead source index)
      ∧ (∀ error,
          (list item delimiter ahead).Fails source index error
          ↔ (∃ tokens cursor,
                Attempts item delimiter ahead source index tokens cursor
                ∧ item.Fails source cursor error)
            ∨ ∃ tokens cursor last stop,
                LeadsTo item delimiter ahead source index tokens cursor
                ∧ StopsAt item delimiter ahead source cursor last stop
                ∧ kept (tokens ++ last) = []
                ∧ .emptyList stop = error)
      ∧ (∀ token,
          (list item delimiter ahead).Reads source index token
          ↔ ∃ tokens cursor last stop,
              LeadsTo item delimiter ahead source index tokens cursor
              ∧ StopsAt item delimiter ahead source cursor last stop
              ∧ kept (tokens ++ last) ≠ []
              ∧ token.index = index
              ∧ token.stop = stop
              ∧ token.kind = .named "list"
              ∧ token.value = .tokens (kept (tokens ++ last)))
      ∧ ((list item delimiter ahead source index).outcome = .unresolved
        ↔ ∃ tokens cursor,
            LeadsTo item delimiter ahead source index tokens cursor
            ∧ WaitsAt item delimiter ahead source cursor) := by
  refine ⟨?_, ?_, ?_, ?_, ?_⟩
  · intro tokens cursor hattempts
    refine ⟨hattempts.length_lt hitem hdelimiter, fun tokens' cursor' hattempts' hlength => ?_⟩
    exact hattempts'.leads.unique hattempts.leads hlength
  · intro other h
    exact congrArg (Reply.bind · _) (runList_congr h)
  · intro error
    exact list_fails_iff hitem hdelimiter
  · intro token
    exact list_reads_iff hitem hdelimiter
  · simp only [list, Reply.outcome_bind_eq_unresolved_iff, Run.close_ne_unresolved, and_false,
      exists_false, or_false]
    exact runList_unresolved_iff hitem hdelimiter (Nat.le_refl _)

/-- In `é,,;` the list goes on behind both commas, though only the first of its three items finds a
letter, and stops where the lookahead finds the semicolon.
-/
theorem missing_letters_follow_rounds
    : let item : Parser Unit := optional (Literal.exact "é").parser
      let delimiter : Option (Parser Unit) := some (Literal.exact ",").parser
      let ahead : Option (Parser Unit) := some (Literal.exact ";").parser
      let source := Source.ofString "é,,;"
      let letter : Token Unit := ⟨0, 2, .named "text", .text "é"⟩
      item.Forward source
      ∧ (∀ parser ∈ delimiter, parser.Forward source)
      ∧ (∀ tokens cursor,
          Attempts item delimiter ahead source 0 tokens cursor → tokens.length < source.size)
      ∧ LeadsTo item delimiter ahead source 0 [letter, .ignored 3 0] 4
      ∧ StopsAt item delimiter ahead source 4 [.ignored 4 0] 4
      ∧ (list item delimiter ahead).Reads source 0 ⟨0, 4, .named "list", .tokens [letter]⟩ := by
  intro item delimiter ahead source letter
  have hitem : item.Forward source := Forward.optional (Literal.forward _)
  have hdelimiter : ∀ parser ∈ delimiter, parser.Forward source := by
    intro parser hparser
    obtain rfl := Option.some.inj hparser
    exact Literal.forward _
  have hmisses (cursor : Nat) (h : cursor = 2 ∨ cursor = 3) : Misses ahead source cursor := by
    rintro parser hparser
    obtain rfl := Option.some.inj hparser
    rcases h with rfl | rfl <;> exact ⟨_, rfl⟩
  have hfirst : Round item delimiter ahead source 0 letter 3 :=
    ⟨by decide, rfl, hmisses 2 (Or.inl rfl), ⟨⟨2, 1, .named "text", .text ","⟩, rfl, rfl⟩⟩
  have hsecond : Round item delimiter ahead source 3 (.ignored 3 0) 4 :=
    ⟨by decide, rfl, hmisses 3 (Or.inr rfl), ⟨⟨3, 1, .named "text", .text ","⟩, rfl, rfl⟩⟩
  have hleads : LeadsTo item delimiter ahead source 0 [letter, .ignored 3 0] 4 :=
    .next hfirst (by decide) (.next hsecond (by decide) .refl)
  have hstops : StopsAt item delimiter ahead source 4 [.ignored 4 0] 4 :=
    .found (by decide) rfl ⟨_, rfl, ⟨4, 1, .named "text", .text ";"⟩, rfl⟩
  obtain ⟨hattempts, -, -, hreads, -⟩ :=
    list_follows_rounds ahead 0 hitem hdelimiter
  refine ⟨hitem, hdelimiter, fun tokens cursor h => (hattempts tokens cursor h).1, hleads, hstops,
    (hreads _).mpr ?_⟩
  exact ⟨_, _, _, _, hleads, hstops, nofun, rfl, rfl, rfl, rfl⟩

end TokenGrammar.Parser
