import TokenGrammar.Proofs.Grammars
import TokenGrammar.Proofs.Leaves
import TokenGrammar.Proofs.Lists

/-! Parsers that never step back. This holds at every offset, so also past the end of a source and
inside of a character, where nothing but empty tokens can be read.
-/

namespace TokenGrammar

variable {α : Type} {source : Source}

namespace Parser

/-- No token ends before the offset where the parser was started. -/
def Forward (source : Source) (parser : Parser α) : Prop :=
  ∀ {index token}, parser.Reads source index token → index ≤ token.stop

/-- No change makes a token end earlier. -/
def NeverShortens (change : Token α → Except ParseError (Token α)) : Prop :=
  ∀ {token changed}, change token = .ok changed → token.stop ≤ changed.stop

theorem le_stop_of_index_eq {token : Token α} {index : Nat} (h : token.index = index)
    : index ≤ token.stop := by
  rw [← h]
  exact Nat.le_add_right ..

/-- Ignoring does not step back, since the token ends where it ended. -/
theorem Forward.ignored {parser : Parser α} (h : parser.Forward source)
    : (ignored parser).Forward source := by
  intro index token hreads
  obtain ⟨inner, hinner, rfl⟩ := ignored_reads_iff.mp hreads
  rw [Token.ignore_stop]
  exact h hinner

/-- An option does not step back, since the empty token is at the start. -/
theorem Forward.optional {parser : Parser α} (h : parser.Forward source)
    : (optional parser).Forward source := by
  intro index token hreads
  rcases optional_reads_iff.mp hreads with hinner | ⟨-, rfl⟩
  · exact h hinner
  · exact le_stop_of_index_eq rfl

theorem Forward.refine {parser : Parser α} {change : Token α → Except ParseError (Token α)}
    (h : parser.Forward source) (hchange : NeverShortens change)
    : (refine change parser).Forward source := by
  intro index token hreads
  obtain ⟨inner, hinner, hok⟩ := refine_reads_iff.mp hreads
  exact Nat.le_trans (h hinner) (hchange hok)

/-- New wording of errors does not step back, since tokens stay as they are. -/
theorem Forward.reword {parser : Parser α} {change : ParseError → ParseError}
    (h : parser.Forward source)
    : (reword change parser).Forward source := by
  intro index token hreads
  exact h (reword_reads_iff.mp hreads)

/-- A choice does not step back if its parsers do not, for its token is one of theirs. -/
theorem forward_choice {parsers : List (Parser α)}
    (h : ∀ parser ∈ parsers, parser.Forward source)
    : (choice parsers).Forward source := by
  intro index token hreads
  obtain ⟨parser, hmem, hparser⟩ := exists_mem_of_choice_reads hreads
  exact h parser hmem hparser

/-- What parsers read one after the other does not end before it starts, by induction on the
run.
-/
theorem Consecutive.le_stop {parsers : List (Parser α)} {cursor stop : Nat}
    {tokens : List (Token α)} (hrun : Consecutive source parsers cursor tokens stop)
    (h : ∀ parser ∈ parsers, parser.Forward source)
    : cursor ≤ stop := by
  induction hrun with
  | nil => exact Nat.le_refl _
  | cons first _ ih =>
      obtain ⟨hfirst, hrest⟩ := List.forall_mem_cons.mp h
      exact Nat.le_trans (hfirst first) (ih hrest)

theorem le_stop_of_runSequence {parsers : List (Parser α)} {ahead : Option (Parser α)}
    {cursor : Nat} {run : Run α} (h : ∀ parser ∈ parsers, parser.Forward source)
    (hrun : (runSequence ahead source parsers cursor).outcome = .matched run)
    : cursor ≤ run.stop := by
  obtain ⟨front, back, tokens, rfl, hfront, -⟩ := runSequence_matched_iff.mp hrun
  exact hfront.le_stop fun parser hmem => h parser (List.mem_append_left _ hmem)

/-- The offset after a delimiter is not before it, if the delimiter does not step back. -/
theorem Passes.le_next {delimiter : Option (Parser α)} {cursor next : Nat}
    (h : Passes delimiter source cursor next)
    (hforward : ∀ parser ∈ delimiter, parser.Forward source)
    : cursor ≤ next := by
  cases delimiter with
  | none => exact Nat.le_of_eq h
  | some parser =>
      obtain ⟨between, hbetween, rfl⟩ := h
      exact hforward parser rfl hbetween

/-- A round of a list does not step back if neither the item nor the delimiter does. -/
theorem Round.le_next {item : Parser α} {delimiter ahead : Option (Parser α)}
    {cursor next : Nat} {token : Token α}
    (round : Round item delimiter ahead source cursor token next)
    (hitem : item.Forward source) (hdelimiter : ∀ parser ∈ delimiter, parser.Forward source)
    : cursor ≤ next :=
  Nat.le_trans (hitem round.reads) (round.passes.le_next hdelimiter)

theorem Round.lt_next {item : Parser α} {delimiter ahead : Option (Parser α)}
    {cursor next : Nat} {token : Token α}
    (round : Round item delimiter ahead source cursor token next) (progress : next ≠ cursor)
    (hitem : item.Forward source) (hdelimiter : ∀ parser ∈ delimiter, parser.Forward source)
    : cursor < next :=
  Nat.lt_of_le_of_ne (round.le_next hitem hdelimiter) progress.symm

section Lists

variable {item : Parser α} {delimiter ahead : Option (Parser α)} {cursor stop : Nat}

/-- A list that may go through as many rounds as there are bytes left may go through one before the
end of the source, and then through as many as there are bytes left further on.
-/
theorem exists_rounds_left {rounds : Nat} (inside : cursor < source.size)
    (hrounds : source.size - cursor ≤ rounds)
    : ∃ left, rounds = left + 1 ∧ ∀ next, cursor < next → source.size - next ≤ left :=
  ⟨rounds - 1, by omega, fun next h => by omega⟩

/-- The rounds of a list do not end before they start, by induction on the rounds. -/
theorem Rounds.le_stop {tokens : List (Token α)}
    (h : Rounds item delimiter ahead source cursor tokens stop) (hitem : item.Forward source)
    (hdelimiter : ∀ parser ∈ delimiter, parser.Forward source)
    : cursor ≤ stop := by
  induction h with
  | exhausted => exact Nat.le_refl _
  | found _ reads | undelimited _ reads => exact hitem reads
  | stalled round => exact round.le_next hitem hdelimiter
  | next round _ _ ih => exact Nat.le_trans (round.le_next hitem hdelimiter) ih

theorem le_stop_of_runList {rounds : Nat} {run : Run α} (hitem : item.Forward source)
    (hdelimiter : ∀ parser ∈ delimiter, parser.Forward source)
    (hrun : (runList item delimiter ahead source rounds cursor).outcome = .matched run)
    : cursor ≤ run.stop := by
  obtain ⟨tokens, hrounds, -⟩ := exists_rounds_of_runList hrun
  exact hrounds.le_stop hitem hdelimiter

/-- The rounds that a list goes through are a run of it, if there are as many as bytes left: by
induction on the rounds, each of which that goes on consumes a byte at least.
-/
theorem runList_of_rounds {tokens : List (Token α)}
    (h : Rounds item delimiter ahead source cursor tokens stop)
    (hitem : item.Forward source) (hdelimiter : ∀ parser ∈ delimiter, parser.Forward source)
    {rounds : Nat} (hrounds : source.size - cursor ≤ rounds)
    : (runList item delimiter ahead source rounds cursor).outcome
      = .matched { items := kept tokens, stop } := by
  have hkeep (token : Token α) (tokens : List (Token α)) (stop : Nat)
      : Run.keep token ⟨kept tokens, stop⟩ = ⟨kept (token :: tokens), stop⟩ := by
    rw [kept_cons, Run.keep]
    split <;> rfl
  induction h generalizing rounds with
  | exhausted outside =>
      rw [runList_of_size_le outside]
      rfl
  | @found cursor token inside reads finds =>
      obtain ⟨rounds, rfl, -⟩ := exists_rounds_left inside hrounds
      exact (runList_succ_matched_iff inside).mpr
        ⟨token, .empty token.stop, reads, hkeep token [] token.stop, Or.inl ⟨finds, rfl⟩⟩
  | @undelimited cursor token inside reads misses stops =>
      obtain ⟨rounds, rfl, -⟩ := exists_rounds_left inside hrounds
      exact (runList_succ_matched_iff inside).mpr
        ⟨token, .empty token.stop, reads, hkeep token [] token.stop,
          Or.inr ⟨misses, Or.inl ⟨stops, rfl⟩⟩⟩
  | @stalled cursor token round =>
      obtain ⟨rounds, rfl, -⟩ := exists_rounds_left round.inside hrounds
      exact (runList_succ_matched_iff round.inside).mpr
        ⟨token, .empty cursor, round.reads, hkeep token [] cursor,
          Or.inr ⟨round.misses, Or.inr ⟨cursor, round.passes, Or.inl ⟨rfl, rfl⟩⟩⟩⟩
  | @next cursor next stop token tokens round progress others ih =>
      obtain ⟨rounds, rfl, hleft⟩ := exists_rounds_left round.inside hrounds
      have hlater := ih (hleft next (round.lt_next progress hitem hdelimiter))
      exact (runList_succ_matched_iff round.inside).mpr
        ⟨token, ⟨kept tokens, stop⟩, round.reads, hkeep token tokens stop,
          Or.inr ⟨round.misses, Or.inr ⟨next, round.passes, Or.inr ⟨progress, hlater⟩⟩⟩⟩

/-- A list that keeps a token reads what its rounds read, because it may go through as many of
them as there are bytes left.
-/
theorem list_reads_of_rounds {index : Nat} {tokens : List (Token α)}
    (h : Rounds item delimiter ahead source index tokens stop)
    (hitem : item.Forward source) (hdelimiter : ∀ parser ∈ delimiter, parser.Forward source)
    (htokens : kept tokens ≠ [])
    : (list item delimiter ahead).Reads source index
        { index, size := stop - index, kind := .named "list", value := .tokens (kept tokens) } := by
  refine Reply.outcome_bind_eq_matched_iff.mpr
    ⟨⟨kept tokens, stop⟩, runList_of_rounds h hitem hdelimiter (Nat.le_refl _), ?_⟩
  exact Run.close_matched_iff.mpr ⟨htokens, rfl⟩

/-- A list without items fails: at the end of the source, or where the first item does, by cases
on which of them it is.
-/
theorem exists_list_fails {index : Nat}
    (h : source.size ≤ index ∨ ∃ error, item.Fails source index error)
    : ∃ error, (list item delimiter ahead).Fails source index error := by
  rcases Nat.lt_or_ge index source.size with hinside | houtside
  · obtain ⟨error, hfails⟩ := h.resolve_left (Nat.not_le.mpr hinside)
    obtain ⟨rounds, hrounds, -⟩ := exists_rounds_left hinside (Nat.le_refl _)
    refine ⟨error, Reply.outcome_bind_eq_failed_iff.mpr (Or.inr ?_)⟩
    rw [hrounds, runList, if_neg (Nat.not_le.mpr hinside)]
    exact Reply.outcome_bind_eq_failed_iff.mpr (Or.inr hfails)
  · refine ⟨.emptyList index, Reply.outcome_bind_eq_failed_iff.mpr
      (Or.inl ⟨.empty index, ?_, Run.close_failed_iff.mpr ⟨rfl, rfl⟩⟩)⟩
    rw [runList_of_size_le houtside]
    rfl

end Lists

end Parser

/-- A token of a literal starts where the literal was looked for. -/
theorem Literal.forward (literal : Literal)
    : Parser.Forward source (literal.parser : Parser α) := by
  intro index token hreads
  obtain ⟨_, -, -, rfl⟩ := Literal.reads_iff.mp hreads
  exact Parser.le_stop_of_index_eq rfl

theorem Pattern.forward (pattern : Pattern)
    : Parser.Forward source (pattern.parser : Parser α) := by
  intro index token hreads
  obtain ⟨_, _, -, -, rfl⟩ := Pattern.reads_iff.mp hreads
  exact Parser.le_stop_of_index_eq rfl

variable {ρ κ : Type}

/-- A grammar never steps back if its rules do not and its actions shorten no token, by
induction on the grammar.
-/
theorem Grammar.forward {perform : κ → Token α → Except ParseError (Token α)}
    {resolve : ρ → Parser α} (hperform : ∀ action, Parser.NeverShortens (perform action))
    (hresolve : ∀ name, (resolve name).Forward source) (grammar : Grammar ρ κ)
    : (grammar.parser perform resolve).Forward source := by
  induction grammar with
  | literal expected => exact expected.forward
  | pattern expected => exact expected.forward
  | fail message =>
      intro index token hreads
      contradiction
  | emit size kind =>
      intro index token hreads
      obtain rfl := Outcome.matched.inj hreads
      exact Parser.le_stop_of_index_eq rfl
  | ignored body ih => exact ih.ignored
  | optional body ih => exact ih.optional
  | choice bodies ih =>
      rw [parser, parsers_eq_map]
      exact Parser.forward_choice (by simpa using ih)
  | sequence bodies ahead =>
      intro index token hreads
      obtain ⟨_, -, -, rfl⟩ := Parser.sequence_reads_iff.mp hreads
      exact Parser.le_stop_of_index_eq rfl
  | list item delimiter ahead =>
      intro index token hreads
      obtain ⟨_, _, -, -, rfl⟩ := Parser.exists_rounds_of_list_reads hreads
      exact Parser.le_stop_of_index_eq rfl
  | act action body ih => exact ih.refine (hperform action)
  | reword rewording body ih => exact ih.reword
  | rule name => exact hresolve name

/-- Rules never step back, however deep they may be nested, by induction on the depth. -/
theorem Language.rule_forward {language : Language ρ κ α}
    (hperform : ∀ action, Parser.NeverShortens (language.perform action)) (depth : Nat)
    (name : ρ)
    : (language.rule depth name).Forward source := by
  refine rule_induction (fun _ parser => parser.Forward source) ?_ ?_ depth name
  · intro name index token hreads
    contradiction
  · intro depth name body _ ih
    exact body.forward hperform ih

end TokenGrammar
