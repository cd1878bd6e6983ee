import TokenGrammar.Proofs.Combinators

/-! Choices inside of choices. However parsers are bracketed into nested choices, these read what a
single choice of all the parsers reads, and fail with the same causes once the errors are taken
apart that the brackets have merged.
-/

namespace TokenGrammar

variable {α : Type}

-----------------------------------------------------------------------------------------
-- Choices of parsers in parts
-----------------------------------------------------------------------------------------

namespace Parser

variable {parser : Parser α} {parsers others : List (Parser α)} {source : Source} {index : Nat}
  {token : Token α} {error : ParseError} {errors : List ParseError}

/-- Each of the parsers fails at the offset, with the error at its position. -/
def AllFail (source : Source) (index : Nat) (parsers : List (Parser α))
    (errors : List ParseError)
    : Prop :=
  List.Forall₂ (fun parser error => parser.Fails source index error) parsers errors

@[simp]
theorem allFail_nil_iff : AllFail source index ([] : List (Parser α)) errors ↔ errors = [] :=
  List.forall₂_nil_left_iff

theorem allFail_cons_iff
    : AllFail source index (parser :: parsers) errors
      ↔ ∃ error later,
          parser.Fails source index error
          ∧ AllFail source index parsers later
          ∧ error :: later = errors := by
  simp only [AllFail, List.forall₂_cons_left_iff, eq_comm]

/-- Parsers in two parts all fail if those of each part do, by induction on the first part. -/
theorem allFail_append_iff
    : AllFail source index (parsers ++ others) errors
      ↔ ∃ earlier later,
          AllFail source index parsers earlier
          ∧ AllFail source index others later
          ∧ earlier ++ later = errors := by
  induction parsers generalizing errors with
  | nil => simp
  | cons parser rest ih =>
      simp only [List.cons_append, allFail_cons_iff, ih]
      constructor
      · intro h
        obtain ⟨error, _, herror, ⟨earlier, later, hearlier, hlater, rfl⟩, rfl⟩ := h
        exact ⟨_, later, ⟨error, earlier, herror, hearlier, rfl⟩, hlater, rfl⟩
      · intro h
        obtain ⟨_, later, ⟨error, earlier, herror, hearlier, rfl⟩, hlater, rfl⟩ := h
        exact ⟨error, _, herror, ⟨earlier, later, hearlier, hlater, rfl⟩, rfl⟩

theorem not_choice_nil_reads : ¬ (choice []).Reads source index token := by
  simp [choice_reads_iff]

/-- A choice reads with its first parser, or with the others if that fails, by cases on which
parser is the reader.
-/
theorem choice_cons_reads_iff
    : (choice (parser :: parsers)).Reads source index token
      ↔ parser.Reads source index token
        ∨ (∃ error, parser.Fails source index error)
          ∧ (choice parsers).Reads source index token := by
  simp only [choice_reads_iff]
  constructor
  · intro h
    obtain ⟨_ | ⟨head, before⟩, reader, after, hsplit, hbefore, hreads⟩ := h
    · obtain ⟨rfl, rfl⟩ := List.cons.inj hsplit
      exact Or.inl hreads
    · obtain ⟨rfl, rfl⟩ := List.cons.inj hsplit
      obtain ⟨hhead, hbefore⟩ := List.forall_mem_cons.mp hbefore
      exact Or.inr ⟨hhead, before, reader, after, rfl, hbefore, hreads⟩
  · intro h
    rcases h with hreads | ⟨hfails, before, reader, after, rfl, hbefore, hreads⟩
    · exact ⟨[], parser, parsers, rfl, by simp, hreads⟩
    · exact ⟨parser :: before, reader, after, rfl, List.forall_mem_cons.mpr ⟨hfails, hbefore⟩,
        hreads⟩

/-- A choice of parsers in two parts reads with the first part, or with the second if all
parsers of the first one fail. By induction on the first part.
-/
theorem choice_append_reads_iff
    : (choice (parsers ++ others)).Reads source index token
      ↔ (choice parsers).Reads source index token
        ∨ (∃ errors, AllFail source index parsers errors)
          ∧ (choice others).Reads source index token := by
  induction parsers with
  | nil => simp [not_choice_nil_reads]
  | cons parser rest ih =>
      simp only [List.cons_append, choice_cons_reads_iff, ih, allFail_cons_iff]
      constructor
      · intro h
        rcases h with h | ⟨herror, h | ⟨⟨later, hlater⟩, h⟩⟩
        · exact Or.inl (Or.inl h)
        · exact Or.inl (Or.inr ⟨herror, h⟩)
        · obtain ⟨error, herror⟩ := herror
          exact Or.inr ⟨⟨_, error, later, herror, hlater, rfl⟩, h⟩
      · intro h
        rcases h with (h | ⟨herror, h⟩) | ⟨⟨_, error, later, herror, hlater, rfl⟩, h⟩
        · exact Or.inl h
        · exact Or.inr ⟨herror, Or.inl h⟩
        · exact Or.inr ⟨⟨error, herror⟩, Or.inr ⟨⟨later, hlater⟩, h⟩⟩

end Parser

-----------------------------------------------------------------------------------------
-- Bracketings
-----------------------------------------------------------------------------------------

/-- Parsers in order, some of which are put together to choices, and these to further choices. -/
inductive Bracketing (α : Type) where
  | leaf (parser : Parser α)
  | choice (parts : List (Bracketing α))

namespace Bracketing

mutual

/-- The parser that the brackets make of the parsers. -/
def parser : Bracketing α → Parser α
  | .leaf parser => parser
  | .choice parts => Parser.choice (parsers parts)

/-- The parsers that the brackets make of several parts. -/
def parsers : List (Bracketing α) → List (Parser α)
  | [] => []
  | part :: rest => part.parser :: parsers rest

end

mutual

/-- The parsers without the brackets. -/
def leaves : Bracketing α → List (Parser α)
  | .leaf parser => [parser]
  | .choice parts => allLeaves parts

/-- The parsers of several parts without the brackets. -/
def allLeaves : List (Bracketing α) → List (Parser α)
  | [] => []
  | part :: rest => part.leaves ++ allLeaves rest

end

mutual

/-- Takes apart what the brackets have merged into an error. The error of a parser that is no
bracket is left as it is, even if it is a merged one.
-/
def unmerge : Bracketing α → ParseError → List ParseError
  | .leaf _, error => [error]
  | .choice parts, error => unmergeAll parts error.causes

/-- Takes apart the errors of several parts. An error for which there is no part stays. -/
def unmergeAll : List (Bracketing α) → List ParseError → List ParseError
  | [], errors => errors
  | _ :: _, [] => []
  | part :: rest, error :: errors => part.unmerge error ++ unmergeAll rest errors

end

variable {source : Source} {index : Nat} {token : Token α}

mutual

/-- The parsers without the brackets all fail if the parser with the brackets does. Their errors
are those that the brackets have merged. By induction on the brackets, together with the same
for several parts.
-/
theorem allFail_leaves_iff (part : Bracketing α) (causes : List ParseError)
    : Parser.AllFail source index part.leaves causes
      ↔ ∃ error, part.parser.Fails source index error ∧ part.unmerge error = causes := by
  cases part with
  | leaf parser =>
      simp [leaves, Bracketing.parser, unmerge, Parser.allFail_cons_iff]
  | choice parts =>
      rw [leaves, allFail_allLeaves_iff parts causes]
      simp only [Bracketing.parser, Parser.choice_fails_iff]
      constructor
      · intro h
        obtain ⟨errors, herrors, rfl⟩ := h
        exact ⟨_, ⟨errors, herrors, rfl⟩, rfl⟩
      · intro h
        obtain ⟨_, ⟨errors, herrors, rfl⟩, rfl⟩ := h
        exact ⟨errors, herrors, rfl⟩
termination_by sizeOf part

/-- The same for several parts, one after the other: the errors of the first one come before
those of the others.
-/
theorem allFail_allLeaves_iff (parts : List (Bracketing α)) (causes : List ParseError)
    : Parser.AllFail source index (allLeaves parts) causes
      ↔ ∃ errors,
          Parser.AllFail source index (parsers parts) errors
          ∧ unmergeAll parts errors = causes := by
  cases parts with
  | nil =>
      simp [allLeaves, parsers, unmergeAll, eq_comm]
  | cons part rest =>
      simp only [allLeaves, parsers, Parser.allFail_append_iff, Parser.allFail_cons_iff,
        allFail_leaves_iff part, allFail_allLeaves_iff rest]
      constructor
      · intro h
        obtain ⟨_, _, ⟨error, herror, rfl⟩, ⟨errors, herrors, rfl⟩, rfl⟩ := h
        exact ⟨_, ⟨error, errors, herror, herrors, rfl⟩, rfl⟩
      · intro h
        obtain ⟨_, ⟨error, errors, herror, herrors, rfl⟩, rfl⟩ := h
        exact ⟨_, _, ⟨error, herror, rfl⟩, ⟨errors, herrors, rfl⟩, rfl⟩
termination_by sizeOf parts

end

/-- The parser with the brackets fails if the parsers without the brackets all do, since their
errors can be told from one another.
-/
theorem exists_fails_iff (part : Bracketing α)
    : (∃ error, part.parser.Fails source index error)
      ↔ ∃ errors, Parser.AllFail source index part.leaves errors := by
  simp only [allFail_leaves_iff]
  constructor
  · intro h
    obtain ⟨error, herror⟩ := h
    exact ⟨_, error, herror, rfl⟩
  · intro h
    obtain ⟨_, error, herror, -⟩ := h
    exact ⟨error, herror⟩

mutual

/-- The parser with the brackets reads what a choice of the parsers without the brackets reads,
by induction on the brackets, together with the same for several parts.
-/
theorem parser_reads_iff (part : Bracketing α)
    : part.parser.Reads source index token
      ↔ (Parser.choice part.leaves).Reads source index token := by
  cases part with
  | leaf parser =>
      simp [leaves, Bracketing.parser, Parser.choice_cons_reads_iff, Parser.not_choice_nil_reads]
  | choice parts => exact choice_parsers_reads_iff parts
termination_by sizeOf part

/-- The same for several parts: the first one reads, or it fails and the others do. -/
theorem choice_parsers_reads_iff (parts : List (Bracketing α))
    : (Parser.choice (parsers parts)).Reads source index token
      ↔ (Parser.choice (allLeaves parts)).Reads source index token := by
  cases parts with
  | nil => exact Iff.rfl
  | cons part rest =>
      rw [parsers, allLeaves, Parser.choice_cons_reads_iff, Parser.choice_append_reads_iff,
        parser_reads_iff part, exists_fails_iff part, choice_parsers_reads_iff rest]
termination_by sizeOf parts

end

end Bracketing

/-- Ordered choice is associative. However parsers are bracketed, nested choices read what a
single choice of the parsers reads: the token of the first parser that does not fail. They fail if
the single choice does, both at the offset and with merged errors; taken apart, that of the nested
choices has the causes of the single choice, the error of each parser in order.
-/
theorem Parser.choice_associative (parts : List (Bracketing α)) (source : Source) (index : Nat)
    : let nested := Bracketing.choice parts
      (∀ token,
        (nested.parser.Reads source index token
          ↔ (choice nested.leaves).Reads source index token)
        ∧ (nested.parser.Reads source index token
          ↔ ∃ before parser after,
              nested.leaves = before ++ parser :: after
              ∧ (∀ earlier ∈ before, ∃ error, earlier.Fails source index error)
              ∧ parser.Reads source index token))
      ∧ (∀ error,
          nested.parser.Fails source index error
          → error.kind = .alternatives
            ∧ error.index = index
            ∧ AllFail source index nested.leaves (nested.unmerge error)
            ∧ (choice nested.leaves).Fails source index
                (.alternatives (nested.unmerge error) index))
      ∧ ∀ error,
          (choice nested.leaves).Fails source index error
          → AllFail source index nested.leaves error.causes
            ∧ ∃ merged,
                nested.parser.Fails source index merged ∧ nested.unmerge merged = error.causes := by
  intro nested
  refine ⟨?_, ?_, ?_⟩
  · intro token
    have hreads
        : nested.parser.Reads source index token
          ↔ (choice nested.leaves).Reads source index token :=
      nested.parser_reads_iff
    exact ⟨hreads, hreads.trans choice_reads_iff⟩
  · intro error hfails
    have hall : AllFail source index nested.leaves (nested.unmerge error) :=
      (nested.allFail_leaves_iff _).mpr ⟨error, hfails, rfl⟩
    obtain ⟨causes, -, rfl⟩ := choice_fails_iff.mp hfails
    exact ⟨rfl, rfl, hall, choice_fails_iff.mpr ⟨_, hall, rfl⟩⟩
  · intro error hfails
    obtain ⟨causes, hall, rfl⟩ := choice_fails_iff.mp hfails
    exact ⟨hall, (nested.allFail_leaves_iff causes).mp hall⟩

/-- Of the merged errors, only the one of the inner brackets is taken apart. -/
example (first second third : Parser α) (left right last : ParseError)
    : (Bracketing.choice
          [.choice [.leaf first, .leaf (Parser.choice [second])], .leaf third]).unmerge
        (.alternatives [.alternatives [left, .alternatives [right] 0] 0, last] 0)
      = [left, .alternatives [right] 0, last] :=
  rfl

end TokenGrammar
