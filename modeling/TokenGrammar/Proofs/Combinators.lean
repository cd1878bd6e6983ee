import Mathlib.Data.List.Forall2
import TokenGrammar.Parser.Structure
import TokenGrammar.Proofs.Replies

/-! What each combinator reads and how it fails, stated through what its parts read and how they
fail. Proofs about grammars use these laws and never unfold a combinator.
-/

namespace TokenGrammar

@[simp]
theorem Token.ignore_stop {α : Type} (token : Token α) : token.ignore.stop = token.stop :=
  rfl

namespace Parser

variable {α : Type} {parser : Parser α} {parsers : List (Parser α)} {ahead : Option (Parser α)}
  {source : Source} {index cursor : Nat} {token : Token α} {error : ParseError}

/-- The parser comes to a token. -/
abbrev Reads (parser : Parser α) (source : Source) (index : Nat) (token : Token α) : Prop :=
  (parser source index).outcome = .matched token

/-- The parser comes to an error. -/
abbrev Fails (parser : Parser α) (source : Source) (index : Nat) (error : ParseError) : Prop :=
  (parser source index).outcome = .failed error

/-- A parser that comes to an answer reads a token or fails, by cases on the outcome. -/
theorem reads_or_fails (h : (parser source index).outcome ≠ .unresolved)
    : (∃ token, parser.Reads source index token) ∨ ∃ error, parser.Fails source index error := by
  unfold Reads Fails
  cases houtcome : (parser source index).outcome with
  | matched token => exact Or.inl ⟨token, rfl⟩
  | failed error => exact Or.inr ⟨error, rfl⟩
  | unresolved => contradiction

theorem ignored_reads_iff
    : (ignored parser).Reads source index token
      ↔ ∃ inner, parser.Reads source index inner ∧ inner.ignore = token := by
  simp [Reads, ignored]

/-- A parser whose token is ignored fails as it does. -/
theorem ignored_fails_iff
    : (ignored parser).Fails source index error ↔ parser.Fails source index error := by
  simp [Fails, ignored]

/-- What may be left out is read, or it fails and an empty token stands in its place. -/
theorem optional_reads_iff
    : (optional parser).Reads source index token
      ↔ parser.Reads source index token
        ∨ (∃ error, parser.Fails source index error) ∧ Token.ignored index 0 = token := by
  simp [Reads, Fails, optional]

theorem not_optional_fails : ¬ (optional parser).Fails source index error := by
  simp [Fails, optional]

theorem refine_reads_iff {change : Token α → Except ParseError (Token α)}
    : (refine change parser).Reads source index token
      ↔ ∃ inner, parser.Reads source index inner ∧ change inner = .ok token := by
  simp only [Reads, refine, Reply.outcome_bind_eq_matched_iff]
  refine exists_congr fun inner => and_congr_right fun _ => ?_
  cases change inner <;> simp

theorem refine_fails_iff {change : Token α → Except ParseError (Token α)}
    : (refine change parser).Fails source index error
      ↔ (∃ inner, parser.Reads source index inner ∧ change inner = .error error)
        ∨ parser.Fails source index error := by
  simp only [Reads, Fails, refine, Reply.outcome_bind_eq_failed_iff]
  refine or_congr_left (exists_congr fun inner => and_congr_right fun _ => ?_)
  cases change inner <;> simp

theorem reword_reads_iff {change : ParseError → ParseError}
    : (reword change parser).Reads source index token ↔ parser.Reads source index token := by
  simp [Reads, reword]

/-- A reworded parser fails as before, in other words. -/
theorem reword_fails_iff {change : ParseError → ParseError}
    : (reword change parser).Fails source index error
      ↔ ∃ inner, parser.Fails source index inner ∧ change inner = error := by
  simp [Fails, reword]

/-- Errors of earlier parsers have no influence on the token of a choice, by induction on the
parsers: the first one matches, or it fails and the others are left.
-/
theorem choiceAfter_matched_iff {errors : List ParseError}
    : (choiceAfter source index errors parsers).outcome = .matched token
      ↔ ∃ before parser after,
          parsers = before ++ parser :: after
          ∧ (∀ earlier ∈ before, ∃ error, earlier.Fails source index error)
          ∧ parser.Reads source index token := by
  induction parsers generalizing errors with
  | nil => simp [choiceAfter]
  | cons first rest ih =>
      simp only [choiceAfter, Reply.outcome_fold_eq_matched_iff, Reply.outcome_noting,
        Reply.outcome_matched, Outcome.matched.injEq, exists_eq_right, ih]
      constructor
      · intro h
        rcases h with h | ⟨error, herror, before, parser, after, rfl, hbefore, hreads⟩
        · exact ⟨[], first, rest, rfl, by simp, h⟩
        · refine ⟨first :: before, parser, after, rfl, ?_, hreads⟩
          intro earlier hearlier
          rcases List.mem_cons.mp hearlier with rfl | hmem
          · exact ⟨error, herror⟩
          · exact hbefore earlier hmem
      · intro h
        rcases h with ⟨_ | ⟨head, before⟩, parser, after, hsplit, hbefore, hreads⟩
        · obtain ⟨rfl, rfl⟩ := List.cons.inj hsplit
          exact Or.inl hreads
        · obtain ⟨rfl, rfl⟩ := List.cons.inj hsplit
          obtain ⟨error, herror⟩ := hbefore first (by simp)
          exact Or.inr ⟨error, herror, before, parser, after, rfl,
            fun earlier hmem => hbefore earlier (List.mem_cons_of_mem first hmem), hreads⟩

theorem choice_reads_iff
    : (choice parsers).Reads source index token
      ↔ ∃ before parser after,
          parsers = before ++ parser :: after
          ∧ (∀ earlier ∈ before, ∃ error, earlier.Fails source index error)
          ∧ parser.Reads source index token :=
  choiceAfter_matched_iff

theorem exists_mem_of_choice_reads (h : (choice parsers).Reads source index token)
    : ∃ parser ∈ parsers, parser.Reads source index token := by
  obtain ⟨before, parser, after, rfl, -, hreads⟩ := choice_reads_iff.mp h
  exact ⟨parser, by simp, hreads⟩

/-- A choice merges the given errors with those of its parsers, which all fail, by induction on
the parsers: each error is put in front of the ones before it.
-/
theorem choiceAfter_failed_iff {errors : List ParseError}
    : (choiceAfter source index errors parsers).outcome = .failed error
      ↔ ∃ later,
          List.Forall₂ (fun parser cause => parser.Fails source index cause) parsers later
          ∧ .alternatives (errors.reverse ++ later) index = error := by
  induction parsers generalizing errors with
  | nil => simp [choiceAfter]
  | cons first rest ih =>
      simp only [choiceAfter, Reply.outcome_fold_eq_failed_iff, Reply.outcome_noting,
        Reply.outcome_matched, ih, List.forall₂_cons_left_iff]
      constructor
      · intro h
        rcases h with ⟨_, _, h⟩ | ⟨cause, hcause, later, hlater, rfl⟩
        · contradiction
        · exact ⟨cause :: later, ⟨cause, later, hcause, hlater, rfl⟩, by simp⟩
      · intro h
        obtain ⟨_, ⟨cause, later, hcause, hlater, rfl⟩, rfl⟩ := h
        exact Or.inr ⟨cause, hcause, later, hlater, by simp⟩

/-- A choice fails with the errors of all its parsers, as no errors are given at its start. -/
theorem choice_fails_iff
    : (choice parsers).Fails source index error
      ↔ ∃ causes,
          List.Forall₂ (fun parser cause => parser.Fails source index cause) parsers causes
          ∧ .alternatives causes index = error := by
  simp only [Fails, choice, choiceAfter_failed_iff, List.reverse_nil, List.nil_append]

/-- The causes of a failed choice are errors of its parsers, by induction on the two lists. -/
theorem exists_mem_of_mem_causes {causes : List ParseError} {cause : ParseError}
    (hcauses
      : List.Forall₂ (fun parser cause => parser.Fails source index cause) parsers causes)
    (hmem : cause ∈ causes)
    : ∃ parser ∈ parsers, parser.Fails source index cause := by
  induction hcauses with
  | nil => contradiction
  | cons hfirst _ ih =>
      rcases List.mem_cons.mp hmem with rfl | hmem
      · exact ⟨_, List.mem_cons_self .., hfirst⟩
      · obtain ⟨parser, hparser, hfails⟩ := ih hmem
        exact ⟨parser, List.mem_cons_of_mem _ hparser, hfails⟩

/-- There is a lookahead and it matches. -/
def Finds (ahead : Option (Parser α)) (source : Source) (cursor : Nat) : Prop :=
  ∃ parser ∈ ahead, ∃ token, parser.Reads source cursor token

/-- If there is a lookahead, it fails. -/
def Misses (ahead : Option (Parser α)) (source : Source) (cursor : Nat) : Prop :=
  ∀ parser ∈ ahead, ∃ error, parser.Fails source cursor error

/-- Where there is no lookahead, it is as if it failed. -/
theorem misses_none : Misses (none : Option (Parser α)) source cursor := by
  simp [Misses]

theorem not_finds_none : ¬ Finds (none : Option (Parser α)) source cursor := by
  simp [Finds]

/-- A result comes from the one reply if the lookahead matches, and from the other if it fails
or there is none.
-/
theorem ifAhead_matched_iff {β : Type} {present absent : Reply β} {result : β}
    : (ifAhead ahead source cursor present absent).outcome = .matched result
      ↔ Finds ahead source cursor ∧ present.outcome = .matched result
        ∨ Misses ahead source cursor ∧ absent.outcome = .matched result := by
  cases ahead <;> simp [ifAhead, Finds, Misses, Reply.outcome_fold_eq_matched_iff]

/-- Errors come from the reply that the lookahead decides for, never from the lookahead. -/
theorem ifAhead_failed_iff {β : Type} {present absent : Reply β}
    : (ifAhead ahead source cursor present absent).outcome = .failed error
      ↔ Finds ahead source cursor ∧ present.outcome = .failed error
        ∨ Misses ahead source cursor ∧ absent.outcome = .failed error := by
  cases ahead <;> simp [ifAhead, Finds, Misses, Reply.outcome_fold_eq_failed_iff]

/-- What follows if a lookahead is absent matters only where it misses, by cases on whether
there is one.
-/
theorem ifAhead_congr {β : Type} {present absent absent' : Reply β}
    (h : Misses ahead source cursor → absent = absent')
    : ifAhead ahead source cursor present absent
      = ifAhead ahead source cursor present absent' := by
  cases ahead with
  | none => exact h misses_none
  | some parser =>
      refine Reply.fold_congr (fun _ _ => rfl) fun error herror => h ?_
      simpa [Misses] using ⟨error, herror⟩

/-- There is no answer if the lookahead has none, or the reply that it decides for. -/
theorem ifAhead_unresolved_iff {β : Type} {present absent : Reply β}
    : (ifAhead ahead source cursor present absent).outcome = .unresolved
      ↔ (∃ parser ∈ ahead, (parser source cursor).outcome = .unresolved)
        ∨ Finds ahead source cursor ∧ present.outcome = .unresolved
        ∨ Misses ahead source cursor ∧ absent.outcome = .unresolved := by
  cases ahead <;> simp [ifAhead, Finds, Misses, Reply.outcome_fold_eq_unresolved_iff]

end Parser

end TokenGrammar
