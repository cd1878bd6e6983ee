import TokenGrammar.Grammar.Basic
import TokenGrammar.Proofs.Errors
import TokenGrammar.Proofs.Leaves
import TokenGrammar.Proofs.Lists

/-! The contract of parsers: a token covers the source from the offset where its parser started
to a boundary, and an error lies from there on. Every grammar keeps it that does not consume
bytes blindly.
-/

namespace TokenGrammar

variable {α : Type}

/-- Started at a boundary, the parser yields tokens that begin there and end at a boundary, and
errors that lie from there on.
-/
structure Parser.Contract (source : Source) (parser : Parser α) : Prop where
  reads
    : ∀ {index token},
        source.isBoundary index
        → parser.Reads source index token
        → token.index = index ∧ source.isBoundary token.stop
  fails
    : ∀ {index error},
        source.isBoundary index
        → parser.Fails source index error
        → error.LiesFrom source index

namespace Parser

variable {source : Source} {parser : Parser α} {parsers : List (Parser α)}

theorem Contract.le_stop {index : Nat} {token : Token α} (h : parser.Contract source)
    (hindex : source.isBoundary index) (hreads : parser.Reads source index token)
    : index ≤ token.stop := by
  have := (h.reads hindex hreads).1
  simp only [Token.stop]
  omega

/-- An error without causes that does not speak of the end may be located at the start. -/
theorem liesFrom_start {index : Nat} {error : ParseError} (hindex : source.isBoundary index)
    (hat : error.index = index) (hcauses : error.causes = [])
    (hkind : error.kind ≠ .unexpectedEnd)
    : error.LiesFrom source index := by
  subst hat
  exact ParseError.liesFrom_leaf hindex (Nat.le_refl _) hcauses hkind

/-- A literal keeps the contract: its token covers a sample of the rest, whose end is a
boundary, and its error is at the start.
-/
theorem contract_literal (expected : Literal)
    : (expected.parser : Parser α).Contract source := by
  constructor
  · intro index token _ hreads
    obtain ⟨rest, hrest, -, rfl⟩ := Literal.reads_iff.mp hreads
    exact ⟨rfl, Source.isBoundary_of_rest? (source.rest?_add_take _ hrest)⟩
  · intro index error hindex hfails
    rcases Literal.fails_iff.mp hfails with ⟨hnone, -⟩ | ⟨rest, -, -, rfl⟩
    · obtain ⟨rest, hrest⟩ := Source.isBoundary_iff.mp hindex
      simp [hrest] at hnone
    · exact liesFrom_start hindex rfl rfl nofun

/-- A pattern keeps the contract: its token covers some characters of the rest, whose end is a
boundary, and its error is at the start.
-/
theorem contract_pattern (expected : Pattern)
    : (expected.parser : Parser α).Contract source := by
  constructor
  · intro index token _ hreads
    obtain ⟨place, cursor, hplace, -, rfl⟩ := Pattern.reads_iff.mp hreads
    have hrest := source.rest?_add_take cursor.passed (source.rest?_of_at? hplace)
    exact ⟨rfl, Source.isBoundary_of_rest? hrest⟩
  · intro index error hindex hfails
    obtain ⟨-, rfl⟩ := Pattern.fails_iff.mp hfails
    exact liesFrom_start hindex rfl rfl nofun

/-- A parser that always fails does so at the start. -/
theorem contract_fail (message : String) : (fail message : Parser α).Contract source := by
  constructor
  · intro index token _ hreads
    simp [Reads, fail] at hreads
  · intro index error hindex hfails
    obtain rfl := Outcome.failed.inj hfails
    exact liesFrom_start hindex rfl rfl nofun

theorem contract_unresolved : Contract source (fun _ _ => .unresolved : Parser α) := by
  constructor
  · intro index token _ hreads
    simp [Reads] at hreads
  · intro index error _ hfails
    simp [Fails] at hfails

/-- Ignoring keeps the contract, since the token stays where it is. -/
theorem Contract.ignored (h : parser.Contract source) : (ignored parser).Contract source := by
  constructor
  · intro index token hindex hreads
    obtain ⟨inner, hinner, rfl⟩ := ignored_reads_iff.mp hreads
    obtain ⟨hstart, hstop⟩ := h.reads hindex hinner
    exact ⟨hstart, hstop⟩
  · intro index error hindex hfails
    exact h.fails hindex (ignored_fails_iff.mp hfails)

/-- An option keeps the contract: in place of an error, it reads an empty token at the start. -/
theorem Contract.optional (h : parser.Contract source)
    : (optional parser).Contract source := by
  constructor
  · intro index token hindex hreads
    rcases optional_reads_iff.mp hreads with hinner | ⟨-, rfl⟩
    · exact h.reads hindex hinner
    · exact ⟨rfl, hindex⟩
  · intro index error _ hfails
    exact absurd hfails not_optional_fails

/-- A change keeps spans if what it accepts keeps its span and what it rejects is an error of its
own at the start of the token.
-/
structure KeepsSpan (change : Token α → Except ParseError (Token α)) : Prop where
  accepted
    : ∀ {token changed},
        change token = .ok changed
        → changed.index = token.index ∧ changed.size = token.size
  rejected
    : ∀ {token error},
        change token = .error error → ∃ message, error = .custom message token.index

/-- A change that keeps spans keeps the contract: what it accepts covers what was read, and what
it rejects is an error at the start.
-/
theorem Contract.refine {change : Token α → Except ParseError (Token α)}
    (h : parser.Contract source) (hchange : KeepsSpan change)
    : (refine change parser).Contract source := by
  constructor
  · intro index token hindex hreads
    obtain ⟨inner, hinner, hok⟩ := refine_reads_iff.mp hreads
    obtain ⟨hstart, hstop⟩ := h.reads hindex hinner
    obtain ⟨hsame, hsize⟩ := hchange.accepted hok
    refine ⟨hsame.trans hstart, ?_⟩
    rwa [Token.stop, hsame, hsize]
  · intro index error hindex hfails
    rcases refine_fails_iff.mp hfails with ⟨inner, hinner, herror⟩ | hinner
    · obtain ⟨message, rfl⟩ := hchange.rejected herror
      exact liesFrom_start hindex (h.reads hindex hinner).1 rfl nofun
    · exact h.fails hindex hinner

/-- A change of errors keeps locations if each part of the new error is where some part of the old
one is, and does not say that the source ends unless that part does.
-/
def KeepsLocations (change : ParseError → ParseError) : Prop :=
  ∀ {error part : ParseError},
    part.PartOf (change error)
    → ∃ origin : ParseError,
        origin.PartOf error
        ∧ part.index = origin.index
        ∧ (part.kind = .unexpectedEnd → origin.kind = .unexpectedEnd)

/-- New wording keeps the contract if it keeps locations, since its parts are where parts of the
error were before.
-/
theorem Contract.reword {change : ParseError → ParseError} (h : parser.Contract source)
    (hchange : KeepsLocations change)
    : (reword change parser).Contract source := by
  constructor
  · intro index token hindex hreads
    exact h.reads hindex (reword_reads_iff.mp hreads)
  · intro index error hindex hfails
    obtain ⟨inner, hinner, rfl⟩ := reword_fails_iff.mp hfails
    intro part hpart
    obtain ⟨origin, horigin, hsame, hkind⟩ := hchange hpart
    obtain ⟨hboundary, hle, hend⟩ := h.fails hindex hinner origin horigin
    rw [← hsame] at hboundary hle hend
    exact ⟨hboundary, hle, hend ∘ hkind⟩

/-- A choice keeps the contract if its parsers do: its token is one of theirs, and its error is
at the start with theirs as causes.
-/
theorem contract_choice (h : ∀ parser ∈ parsers, parser.Contract source)
    : (choice parsers).Contract source := by
  constructor
  · intro index token hindex hreads
    obtain ⟨parser, hmem, hparser⟩ := exists_mem_of_choice_reads hreads
    exact (h parser hmem).reads hindex hparser
  · intro index error hindex hfails
    obtain ⟨causes, hcauses, rfl⟩ := choice_fails_iff.mp hfails
    refine ParseError.liesFrom_alternatives hindex (Nat.le_refl _) ?_
    intro cause hmem
    obtain ⟨parser, hparser, hfails⟩ := exists_mem_of_mem_causes hcauses hmem
    exact (h parser hparser).fails hindex hfails

/-- Parsers that keep the contract read on from boundary to boundary, by induction on the run.
-/
theorem Consecutive.contract {cursor stop : Nat} {tokens : List (Token α)}
    (hrun : Consecutive source parsers cursor tokens stop)
    (h : ∀ parser ∈ parsers, parser.Contract source) (hcursor : source.isBoundary cursor)
    : cursor ≤ stop ∧ source.isBoundary stop := by
  induction hrun with
  | nil => exact ⟨Nat.le_refl _, hcursor⟩
  | cons first _ ih =>
      have hfirst := h _ (List.mem_cons_self ..)
      obtain ⟨hle, hstop⟩ := ih (fun parser hmem => h parser (List.mem_cons_of_mem _ hmem))
        (hfirst.reads hcursor first).2
      exact ⟨Nat.le_trans (hfirst.le_stop hcursor first) hle, hstop⟩

/-- A sequence keeps the contract if its parsers do. It ends where the last of them ended, and
fails where one of them did, at the end of the source or at the start.
-/
theorem contract_sequence (ahead : Option (Parser α))
    (h : ∀ parser ∈ parsers, parser.Contract source)
    : (sequence parsers ahead).Contract source := by
  constructor
  · intro index token hindex hreads
    obtain ⟨run, hrun, -, rfl⟩ := sequence_reads_iff.mp hreads
    obtain ⟨front, back, tokens, rfl, hfront, -⟩ := runSequence_matched_iff.mp hrun
    obtain ⟨hle, hstop⟩ :=
      hfront.contract (fun parser hmem => h parser (List.mem_append_left _ hmem)) hindex
    refine ⟨rfl, ?_⟩
    rwa [Token.stop, Nat.add_sub_cancel' hle]
  · intro index error hindex hfails
    rcases sequence_fails_iff.mp hfails with ⟨run, hrun, -, rfl⟩ | hrun
    · obtain ⟨front, back, tokens, rfl, hfront, -⟩ := runSequence_matched_iff.mp hrun
      obtain ⟨hle, hstop⟩ :=
        hfront.contract (fun parser hmem => h parser (List.mem_append_left _ hmem)) hindex
      exact ParseError.liesFrom_leaf hstop hle rfl nofun
    · obtain ⟨front, parser, back, tokens, stop, cause, rfl, hfront, hcause, hor⟩ :=
        runSequence_failed_iff.mp hrun
      obtain ⟨hle, hstop⟩ :=
        hfront.contract (fun parser hmem => h parser (List.mem_append_left _ hmem)) hindex
      rcases hor with ⟨hsize, rfl⟩ | ⟨-, -, rfl⟩
      · exact ParseError.liesFrom_unexpectedEnd hstop hle hsize
      · exact ((h parser (by simp)).fails hstop hcause).mono hle

section Lists

variable {item : Parser α} {delimiter ahead : Option (Parser α)} {cursor stop : Nat}

/-- A round ends at a boundary that is not before the cursor, by cases on whether there is a
delimiter.
-/
theorem Round.contract {token : Token α} {next : Nat}
    (round : Round item delimiter ahead source cursor token next)
    (hitem : item.Contract source) (hdelimiter : ∀ parser ∈ delimiter, parser.Contract source)
    (hcursor : source.isBoundary cursor)
    : cursor ≤ next ∧ source.isBoundary next := by
  have hle := hitem.le_stop hcursor round.reads
  have hstop := (hitem.reads hcursor round.reads).2
  have hpasses := round.passes
  cases delimiter with
  | none =>
      obtain rfl : token.stop = next := hpasses
      exact ⟨hle, hstop⟩
  | some parser =>
      obtain ⟨between, hbetween, rfl⟩ := hpasses
      have hparser := hdelimiter parser rfl
      exact ⟨Nat.le_trans hle (hparser.le_stop hstop hbetween),
        (hparser.reads hstop hbetween).2⟩

/-- All rounds of a list read on from boundary to boundary, by induction on the rounds. -/
theorem Rounds.contract {tokens : List (Token α)}
    (hrounds : Rounds item delimiter ahead source cursor tokens stop)
    (hitem : item.Contract source) (hdelimiter : ∀ parser ∈ delimiter, parser.Contract source)
    (hcursor : source.isBoundary cursor)
    : cursor ≤ stop ∧ source.isBoundary stop := by
  induction hrounds with
  | exhausted => exact ⟨Nat.le_refl _, hcursor⟩
  | found _ reads | undelimited _ reads =>
      exact ⟨hitem.le_stop hcursor reads, (hitem.reads hcursor reads).2⟩
  | stalled round => exact round.contract hitem hdelimiter hcursor
  | next round _ _ ih =>
      obtain ⟨hle, hnext⟩ := round.contract hitem hdelimiter hcursor
      obtain ⟨hle', hstop⟩ := ih hnext
      exact ⟨Nat.le_trans hle hle', hstop⟩

/-- The error of an item lies from the start of the list on, by induction on the rounds before
it.
-/
theorem ItemFails.contract {error : ParseError}
    (h : ItemFails item delimiter ahead source cursor error)
    (hitem : item.Contract source) (hdelimiter : ∀ parser ∈ delimiter, parser.Contract source)
    (hcursor : source.isBoundary cursor)
    : error.LiesFrom source cursor := by
  induction h with
  | here _ fails => exact hitem.fails hcursor fails
  | next round _ _ ih =>
      obtain ⟨hle, hnext⟩ := round.contract hitem hdelimiter hcursor
      exact (ih hnext).mono hle

/-- A list keeps the contract if its item and its delimiter do. It ends where its rounds end,
and fails where an item did, at the end of the source or at the start.
-/
theorem contract_list (ahead : Option (Parser α)) (hitem : item.Contract source)
    (hdelimiter : ∀ parser ∈ delimiter, parser.Contract source)
    : (list item delimiter ahead).Contract source := by
  constructor
  · intro index token hindex hreads
    obtain ⟨tokens, stop, hrounds, -, rfl⟩ := exists_rounds_of_list_reads hreads
    obtain ⟨hle, hstop⟩ := hrounds.contract hitem hdelimiter hindex
    refine ⟨rfl, ?_⟩
    rwa [Token.stop, Nat.add_sub_cancel' hle]
  · intro index error hindex hfails
    rcases itemFails_or_of_list_fails hfails with hitemFails | ⟨tokens, stop, hrounds, -, rfl⟩
    · exact hitemFails.contract hitem hdelimiter hindex
    · obtain ⟨hle, hstop⟩ := hrounds.contract hitem hdelimiter hindex
      exact ParseError.liesFrom_leaf hstop hle rfl nofun

end Lists

end Parser

end TokenGrammar
