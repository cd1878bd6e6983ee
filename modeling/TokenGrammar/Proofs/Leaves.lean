import TokenGrammar.Parser.Literal
import TokenGrammar.Parser.Pattern
import TokenGrammar.Proofs.Combinators
import TokenGrammar.Proofs.Places

/-! What literals and patterns read and how they fail. These are the parsers that look at the
characters of the source.
-/

namespace TokenGrammar

variable {α : Type} {source : Source} {index : Nat} {token : Token α} {error : ParseError}

namespace Literal

variable {literal : Literal}

/-- A literal reads the sample at a boundary that stands for it, by cases on the place and on
whether the sample is accepted.
-/
theorem reads_iff
    : literal.parser.Reads source index token
      ↔ ∃ rest,
          source.rest? index = some rest
          ∧ literal.accepts (rest.take literal.text.length)
          ∧ { index, size := byteLength (rest.take literal.text.length), kind := .named "text",
              value := .text (String.ofList (rest.take literal.text.length)) }
            = token := by
  unfold Parser.Reads parser Source.rest?
  cases source.at? index with
  | none => simp
  | some place =>
      simp only [Option.map_some, Option.some.injEq, exists_eq_left']
      split
      case isTrue h => simp [h]
      case isFalse h => simp [h]

/-- A literal fails where there is no boundary, and at a sample that does not stand for it. -/
theorem fails_iff
    : (literal.parser : Parser α).Fails source index error
      ↔ source.rest? index = none ∧ .mismatch (.invalidOffset source.size) index = error
        ∨ ∃ rest,
            source.rest? index = some rest
            ∧ ¬ literal.accepts (rest.take literal.text.length)
            ∧ .mismatch
                (.literal literal.text (String.ofList (rest.take literal.text.length))) index
              = error := by
  unfold Parser.Fails parser Source.rest?
  cases source.at? index with
  | none => simp
  | some place =>
      simp only [Option.map_some, reduceCtorEq, false_and, false_or, Option.some.injEq,
        exists_eq_left']
      split
      case isTrue h => simp [h]
      case isFalse h => simp [h]

theorem fails_of_rest?_eq_none (literal : Literal) (h : source.rest? index = none)
    : (literal.parser : Parser α).Fails source index
        (.mismatch (.invalidOffset source.size) index) :=
  fails_iff.mpr (Or.inl ⟨h, rfl⟩)

/-- Nothing but the empty literal stands for no text at all. -/
theorem text_eq_empty_of_accepts_nil (h : literal.accepts []) : literal.text = "" := by
  refine String.toList_eq_nil_iff.mp (Eq.symm ?_)
  simpa [accepts, Unicode.lowercase, Unicode.lowercaseAfter] using h

/-- A literal always comes to an answer, by cases on the place. -/
theorem outcome_ne_unresolved
    : ((literal.parser : Parser α) source index).outcome ≠ .unresolved := by
  unfold parser
  cases source.at? index with
  | none => simp
  | some place =>
      dsimp only
      split <;> simp

end Literal

/-- The matcher finds this text if this rest follows it, whatever comes before, and records these
spans.
-/
def Matcher.Takes (matcher : Matcher) (text rest : List Char) (spans : List (Nat × Span))
    : Prop :=
  ∀ place : Place, place.after = text ++ rest → matcher.match? place = some ⟨text.length, spans⟩

/-- All that the matcher finds are texts of this form. -/
def Matcher.Spells (matcher : Matcher) (holds : List Char → Prop) : Prop :=
  ∀ ⦃place found⦄,
    matcher.match? place = some found
    → ∃ text rest,
        place.after = text ++ rest ∧ found.passed = text.length ∧ holds text

/-- The matcher finds nothing in front of the characters, whatever comes before. -/
def Matcher.Refuses (matcher : Matcher) (chars : List Char) : Prop :=
  ∀ place : Place, place.after = chars → matcher.match? place = none

namespace Pattern

variable {pattern : Pattern} {text rest : List Char} {spans : List (Nat × Span)}
  {holds : List Char → Prop}

/-- The token of a pattern that matches this text, with this rest after it, and records these
spans.
-/
def tokenOf (pattern : Pattern) (index : Nat) (text rest : List Char) (spans : List (Nat × Span))
    : Token α :=
  { index
    size := byteLength text
    kind := .named "regex"
    value := .groups (pattern.groups (text ++ rest) ⟨text.length, spans⟩) }

/-- A pattern reads what its matcher finds at a boundary, by cases on the place and the match. -/
theorem reads_iff
    : pattern.parser.Reads source index token
      ↔ ∃ place found,
          source.at? index = some place
          ∧ pattern.matcher.match? place = some found
          ∧ pattern.tokenOf index (place.after.take found.passed)
              (place.after.drop found.passed) found.spans
            = token := by
  unfold Parser.Reads parser tokenOf
  cases source.at? index with
  | none => simp
  | some place =>
      cases hmatch : pattern.matcher.match? place with
      | none => simp [hmatch]
      | some found => simp [hmatch, pattern.matcher.passed_le hmatch]

theorem fails_iff
    : (pattern.parser : Parser α).Fails source index error
      ↔ (∀ place, source.at? index = some place → pattern.matcher.match? place = none)
        ∧ .mismatch (.pattern pattern.written) index = error := by
  unfold Parser.Fails parser
  cases source.at? index with
  | none => simp
  | some place => cases hmatch : pattern.matcher.match? place <;> simp [hmatch]

theorem fails_of_rest?_eq_none (pattern : Pattern) (h : source.rest? index = none)
    : (pattern.parser : Parser α).Fails source index
        (.mismatch (.pattern pattern.written) index) := by
  refine fails_iff.mpr ⟨fun place hplace => ?_, rfl⟩
  simp [Source.rest?_of_at? hplace] at h

theorem outcome_ne_unresolved
    : ((pattern.parser : Parser α) source index).outcome ≠ .unresolved := by
  unfold parser
  cases source.at? index with
  | none => simp
  | some place => cases hmatch : pattern.matcher.match? place <;> simp [hmatch]

/-- A pattern reads a text that its matcher takes, with the spans that are recorded on the way:
any place at the offset has that text next.
-/
theorem reads_of_takes (h : pattern.matcher.Takes text rest spans)
    (hrest : source.rest? index = some (text ++ rest))
    : pattern.parser.Reads source index (pattern.tokenOf index text rest spans : Token α) := by
  obtain ⟨place, hplace, hafter⟩ := source.exists_at?_of_rest? hrest
  refine reads_iff.mpr ⟨place, _, hplace, h place hafter, ?_⟩
  simp [hafter]

/-- A pattern fails in front of what its matcher refuses, since the rest at a place is what
comes after it.
-/
theorem fails_of_refuses (h : pattern.matcher.Refuses rest)
    (hrest : source.rest? index = some rest)
    : (pattern.parser : Parser α).Fails source index
        (.mismatch (.pattern pattern.written) index) := by
  refine fails_iff.mpr ⟨?_, rfl⟩
  intro place hplace
  refine h place ?_
  simpa [source.rest?_of_at? hplace] using hrest

theorem isIgnored_of_reads (hreads : pattern.parser.Reads source index token)
    : token.isIgnored = false := by
  obtain ⟨_, _, -, -, rfl⟩ := reads_iff.mp hreads
  rfl

/-- A token of a pattern covers a text that the pattern spells, since that is what its matcher
finds.
-/
theorem exists_text_of_reads (h : pattern.matcher.Spells holds)
    (hreads : pattern.parser.Reads source index token)
    : ∃ text rest spans,
        source.rest? index = some (text ++ rest)
        ∧ holds text
        ∧ token = pattern.tokenOf index text rest spans := by
  obtain ⟨place, found, hplace, hmatch, rfl⟩ := reads_iff.mp hreads
  obtain ⟨text, rest, hafter, hpassed, htext⟩ := h hmatch
  refine ⟨text, rest, found.spans, ?_, htext, ?_⟩
  · rw [source.rest?_of_at? hplace, hafter]
  · rw [hpassed, hafter, List.take_left, List.drop_left]

theorem exists_slice_of_reads (h : pattern.matcher.Spells holds)
    (hreads : pattern.parser.Reads source index token)
    : ∃ text, source.slice? index token.stop = some text ∧ holds text := by
  obtain ⟨text, rest, spans, hrest, htext, rfl⟩ := exists_text_of_reads h hreads
  exact ⟨text, source.slice?_of_rest? hrest, htext⟩

/-- A pattern refuses characters that do not start with a text that it spells, for it would
spell what it takes.
-/
theorem refuses_of_spells (h : pattern.matcher.Spells holds) {chars : List Char}
    (hnone : ∀ text rest, chars = text ++ rest → ¬ holds text)
    : pattern.matcher.Refuses chars := by
  intro place hplace
  cases hmatch : pattern.matcher.match? place with
  | none => rfl
  | some found =>
      obtain ⟨text, rest, hafter, -, htext⟩ := h hmatch
      exact absurd htext (hnone _ _ (hplace.symm.trans hafter))

end Pattern

end TokenGrammar
