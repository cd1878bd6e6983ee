import TokenGrammar.Parser.Literal
import TokenGrammar.Proofs.Sequences

/-! How far sequences come and what they make of it. Of the parsers of a sequence, the longest part
from the start counts that can be read one after the other: where it stops, it is decided whether
the sequence ends early, ends as a whole or fails.
-/

namespace TokenGrammar.Parser

variable {α : Type} {parser : Parser α} {parsers front back rest : List (Parser α)}
  {ahead : Option (Parser α)} {source : Source} {index stop : Nat} {tokens : List (Token α)}
  {error : ParseError}

/-- The parsers at the front read the tokens one after the other, up to the stop, and the next
parser, if there is one, does not read on from there.
-/
structure LongestPrefix (source : Source) (parsers : List (Parser α)) (index : Nat)
    (front back : List (Parser α)) (tokens : List (Token α)) (stop : Nat)
    : Prop where
  split : parsers = front ++ back
  reads : Consecutive source front index tokens stop
  longest : ∀ next ∈ back.head?, ∀ token, ¬ next.Reads source stop token

/-- There always is a longest prefix, by induction on the parsers. -/
theorem exists_longestPrefix (source : Source) (parsers : List (Parser α)) (index : Nat)
    : ∃ front back tokens stop, LongestPrefix source parsers index front back tokens stop := by
  induction parsers generalizing index with
  | nil => exact ⟨[], [], [], index, rfl, .nil, nofun⟩
  | cons parser rest ih =>
      by_cases h : ∃ token, parser.Reads source index token
      · obtain ⟨token, htoken⟩ := h
        obtain ⟨front, back, tokens, stop, rfl, hreads, hlongest⟩ := ih token.stop
        exact ⟨parser :: front, back, token :: tokens, stop, rfl, .cons htoken hreads, hlongest⟩
      · refine ⟨[], parser :: rest, [], index, rfl, .nil, ?_⟩
        intro next hnext token hreads
        obtain rfl := Option.some.inj hnext
        exact h ⟨token, hreads⟩

/-- The sequence ends at the stop of its longest prefix: all of its parsers have been read, or the
next one fails before the end of the source where the lookahead matches.
-/
def EndsAt (ahead : Option (Parser α)) (source : Source) (back : List (Parser α)) (stop : Nat)
    : Prop :=
  back = []
  ∨ stop < source.size
    ∧ Finds ahead source stop
    ∧ ∃ parser rest error, back = parser :: rest ∧ parser.Fails source stop error

namespace LongestPrefix

/-- At the end of the source, the error of the next parser does not count, nor the lookahead. -/
theorem fails_at_end
    (h : LongestPrefix source parsers index front (parser :: rest) tokens stop)
    (hfails : parser.Fails source stop error) (hsize : source.size ≤ stop)
    : (sequence parsers ahead).Fails source index (.unexpectedEnd stop) :=
  sequence_fails_iff.mpr (Or.inr (runSequence_failed_iff.mpr
    ⟨front, parser, rest, tokens, stop, error, h.split, h.reads, hfails, Or.inl ⟨hsize, rfl⟩⟩))

/-- Before the end of the source, the error of the next parser is that of the sequence, unless the
lookahead matches.
-/
theorem fails_inside
    (h : LongestPrefix source parsers index front (parser :: rest) tokens stop)
    (hfails : parser.Fails source stop error) (hsize : stop < source.size)
    (hmisses : Misses ahead source stop)
    : (sequence parsers ahead).Fails source index error :=
  sequence_fails_iff.mpr (Or.inr (runSequence_failed_iff.mpr
    ⟨front, parser, rest, tokens, stop, error, h.split, h.reads, hfails,
      Or.inr ⟨hsize, hmisses, rfl⟩⟩))

theorem runSequence_matched (h : LongestPrefix source parsers index front back tokens stop)
    (hends : EndsAt ahead source back stop)
    : (runSequence ahead source parsers index).outcome = .matched ⟨kept tokens, stop⟩ :=
  runSequence_matched_iff.mpr ⟨front, back, tokens, h.split, h.reads, rfl, hends⟩

/-- A sequence that ends with ignored tokens only, or with none at all, fails, because its run
keeps nothing.
-/
theorem fails_empty (h : LongestPrefix source parsers index front back tokens stop)
    (hends : EndsAt ahead source back stop) (hignored : ∀ token ∈ tokens, token.isIgnored)
    : (sequence parsers ahead).Fails source index (.emptySequence stop) := by
  refine sequence_fails_iff.mpr (Or.inl ⟨_, h.runSequence_matched hends, ?_, rfl⟩)
  exact kept_eq_nil_iff.mpr hignored

/-- A sequence that ends with a token to keep spans all of the tokens and holds those to keep,
because its run does.
-/
theorem exists_reads (h : LongestPrefix source parsers index front back tokens stop)
    (hends : EndsAt ahead source back stop) (hkeeps : ∃ token ∈ tokens, token.isIgnored = false)
    : ∃ token : Token α,
        (sequence parsers ahead).Reads source index token
        ∧ token.index = index
        ∧ (index ≤ stop → token.stop = stop)
        ∧ token.kind = .named "sequence"
        ∧ token.value = .tokens (kept tokens) := by
  have hkept : kept tokens ≠ [] := kept_ne_nil_iff.mpr hkeeps
  refine ⟨_, sequence_reads_iff.mpr ⟨_, h.runSequence_matched hends, hkept, rfl⟩, rfl, ?_, rfl, rfl⟩
  exact Nat.add_sub_cancel'

end LongestPrefix

/-- What a sequence does, by its longest prefix. If the prefix lacks a parser and stops at the end
of the source, the sequence fails there, whatever the error and the lookahead. If it stops before
the end, the sequence fails with the error of the next parser where the lookahead misses. Otherwise
the sequence ends there: it spans all tokens and holds those that are not ignored, or fails if
there are none.
-/
theorem sequence_follows_longest_prefix (parsers : List (Parser α)) (ahead : Option (Parser α))
    (source : Source) (index : Nat)
    : (∃ front back tokens stop, LongestPrefix source parsers index front back tokens stop)
      ∧ ∀ front back tokens stop,
          LongestPrefix source parsers index front back tokens stop
          → (∀ parser rest error,
              back = parser :: rest
              → parser.Fails source stop error
              → (source.size ≤ stop
                  → (sequence parsers ahead).Fails source index (.unexpectedEnd stop))
                ∧ (stop < source.size
                  → Misses ahead source stop
                  → (sequence parsers ahead).Fails source index error))
            ∧ (EndsAt ahead source back stop
              → ((∀ token ∈ tokens, token.isIgnored)
                  → (sequence parsers ahead).Fails source index (.emptySequence stop))
                ∧ ((∃ token ∈ tokens, token.isIgnored = false)
                  → ∃ token : Token α,
                      (sequence parsers ahead).Reads source index token
                      ∧ token.index = index
                      ∧ (index ≤ stop → token.stop = stop)
                      ∧ token.kind = .named "sequence"
                      ∧ token.value = .tokens (kept tokens))) := by
  refine ⟨exists_longestPrefix source parsers index, ?_⟩
  intro front back tokens stop h
  refine ⟨?_, fun hends => ⟨h.fails_empty hends, h.exists_reads hends⟩⟩
  intro parser rest error hback hfails
  subst hback
  exact ⟨h.fails_at_end hfails, h.fails_inside hfails⟩

/-- Where a semicolon follows, the sequence ends before the last letter. -/
example
    : (sequence
          [(Literal.exact "a").parser, (Literal.exact ",").parser, (Literal.exact "b").parser]
          (some (Literal.exact ";").parser) (Source.ofString "a,;") 0).outcome
      = .matched
          (⟨0, 2, .named "sequence",
            .tokens [⟨0, 1, .named "text", .text "a"⟩, ⟨1, 1, .named "text", .text ","⟩]⟩
            : Token Unit) :=
  rfl

end TokenGrammar.Parser
