import TokenGrammar.Parser.Literal
import TokenGrammar.Proofs.Leaves
import TokenGrammar.Proofs.Sequences

/-! Sequences inside of sequences. Where parsers stay within the source and the inner sequence
always has a token to keep, it makes no difference to the span or to the error whether its parsers
are grouped or stand in the outer sequence themselves.
-/

namespace TokenGrammar.Parser

variable {α : Type} {parser : Parser α} {parsers before group after : List (Parser α)}
  {source : Source} {index cursor start stop : Nat} {token : Token α} {tokens : List (Token α)}
  {error : ParseError}

-----------------------------------------------------------------------------------------
-- Parsers that stay within the source
-----------------------------------------------------------------------------------------

/-- Started in the source, the parser yields tokens that begin there and do not end beyond it. -/
def StaysWithin (source : Source) (parser : Parser α) : Prop :=
  ∀ index token,
    index ≤ source.size
    → parser.Reads source index token
    → token.index = index ∧ token.stop ≤ source.size

/-- A literal stays within the source, for its token covers a sample of the rest. -/
theorem staysWithin_literal (expected : Literal)
    : StaysWithin source (expected.parser : Parser α) := by
  intro index token _ hreads
  obtain ⟨rest, hrest, -, rfl⟩ := Literal.reads_iff.mp hreads
  have hstop := source.rest?_add_take expected.text.length hrest
  exact ⟨rfl, Source.le_size_of_isBoundary (Source.isBoundary_of_rest? hstop)⟩

/-- Ignoring stays within the source, since the token stays where it is. -/
theorem StaysWithin.ignored (h : StaysWithin source parser)
    : StaysWithin source (ignored parser) := by
  intro index token hindex hreads
  obtain ⟨inner, hinner, rfl⟩ := ignored_reads_iff.mp hreads
  obtain ⟨hstart, hstop⟩ := h _ _ hindex hinner
  exact ⟨hstart, hstop⟩

/-- What such parsers read one after the other lies in order within the source, by induction on
the run.
-/
theorem Consecutive.le_stop_le_size (hrun : Consecutive source parsers cursor tokens stop)
    (h : ∀ parser ∈ parsers, StaysWithin source parser) (hcursor : cursor ≤ source.size)
    : cursor ≤ stop ∧ stop ≤ source.size := by
  induction hrun with
  | nil => exact ⟨Nat.le_refl _, hcursor⟩
  | @cons parser rest cursor stop token tokens first _ ih =>
      obtain ⟨hparser, hrest⟩ := List.forall_mem_cons.mp h
      obtain ⟨hindex, hstop⟩ := hparser _ _ hcursor first
      have hle : cursor ≤ token.stop := hindex ▸ Nat.le_add_right ..
      exact ⟨Nat.le_trans hle (ih hrest hstop).1, (ih hrest hstop).2⟩

/-- A run of such parsers that starts at the end of the source fails there unexpectedly, if it
fails, for none of them can lead further on.
-/
theorem eq_unexpectedEnd_of_runSequence (h : ∀ parser ∈ parsers, StaysWithin source parser)
    (hfails : (runSequence none source parsers source.size).outcome = .failed error)
    : .unexpectedEnd source.size = error := by
  obtain ⟨front, parser, back, tokens, stop, cause, rfl, hrun, -, hcause⟩ :=
    runSequence_failed_iff.mp hfails
  have hfront : ∀ parser ∈ front, StaysWithin source parser :=
    fun parser hmem => h parser (List.mem_append_left _ hmem)
  obtain ⟨hle, hsize⟩ := hrun.le_stop_le_size hfront (Nat.le_refl _)
  obtain rfl := Nat.le_antisymm hle hsize
  rcases hcause with ⟨-, hend⟩ | ⟨hlt, -⟩
  · exact hend
  · exact absurd hlt (Nat.lt_irrefl _)

-----------------------------------------------------------------------------------------
-- Runs of parsers in parts
-----------------------------------------------------------------------------------------

/-- Parsers in two parts read one after the other if each part does, the second from where the
first one stops. By induction on the first part.
-/
theorem consecutive_append_iff
    : Consecutive source (before ++ after) cursor tokens stop
      ↔ ∃ earlier middle later,
          Consecutive source before cursor earlier middle
          ∧ Consecutive source after middle later stop
          ∧ tokens = earlier ++ later := by
  induction before generalizing cursor tokens with
  | nil => simp [consecutive_nil_iff]
  | cons parser rest ih =>
      simp only [List.cons_append, consecutive_cons_iff, ih]
      constructor
      · intro h
        obtain ⟨token, _, htoken, ⟨earlier, middle, later, hrest, hafter, rfl⟩, rfl⟩ := h
        exact ⟨token :: earlier, middle, later, ⟨token, earlier, htoken, hrest, rfl⟩, hafter, rfl⟩
      · intro h
        obtain ⟨_, middle, later, ⟨token, earlier, htoken, hrest, rfl⟩, hafter, rfl⟩ := h
        exact ⟨token, _, htoken, ⟨earlier, middle, later, hrest, hafter, rfl⟩, rfl⟩

/-- A run of parsers in two parts fails in the second part, which starts where the first one
stops, or in the first. By induction on the first part.
-/
theorem runSequence_append_failed_iff
    : (runSequence none source (before ++ after) cursor).outcome = .failed error
      ↔ (∃ tokens middle,
            Consecutive source before cursor tokens middle
            ∧ (runSequence none source after middle).outcome = .failed error)
        ∨ (runSequence none source before cursor).outcome = .failed error := by
  induction before generalizing cursor with
  | nil => simp [consecutive_nil_iff, runSequence]
  | cons parser rest ih =>
      simp only [List.cons_append, runSequence_cons_failed_iff, consecutive_cons_iff, ih]
      constructor
      · intro h
        rcases h with ⟨token, htoken, ⟨tokens, middle, hrest, hafter⟩ | hrest⟩ | hfirst
        · exact Or.inl ⟨_, middle, ⟨token, tokens, htoken, hrest, rfl⟩, hafter⟩
        · exact Or.inr (Or.inl ⟨token, htoken, hrest⟩)
        · exact Or.inr (Or.inr hfirst)
      · intro h
        rcases h with ⟨_, middle, ⟨token, tokens, htoken, hrest, rfl⟩, hafter⟩ | h | hfirst
        · exact Or.inl ⟨token, htoken, Or.inl ⟨tokens, middle, hrest, hafter⟩⟩
        · obtain ⟨token, htoken, hrest⟩ := h
          exact Or.inl ⟨token, htoken, Or.inr hrest⟩
        · exact Or.inr hfirst

-----------------------------------------------------------------------------------------
-- The inner sequence
-----------------------------------------------------------------------------------------

/-- Wherever the parsers read one after the other, there is a token to keep. -/
def AlwaysKeeps (source : Source) (parsers : List (Parser α)) : Prop :=
  ∀ start tokens stop,
    Consecutive source parsers start tokens stop → ∃ token ∈ tokens, token.isIgnored = false

theorem AlwaysKeeps.kept_ne_nil (h : AlwaysKeeps source parsers)
    (hrun : Consecutive source parsers start tokens stop)
    : kept tokens ≠ [] :=
  kept_ne_nil_iff.mpr (h _ _ _ hrun)

/-- It is enough that some of the parsers always have a token to keep, since the others add to
theirs.
-/
theorem AlwaysKeeps.surround (h : AlwaysKeeps source group)
    : AlwaysKeeps source (before ++ group ++ after) := by
  intro start tokens stop hrun
  obtain ⟨_, _, later, hfront, -, rfl⟩ := consecutive_append_iff.mp hrun
  obtain ⟨earlier, _, items, -, hgroup, rfl⟩ := consecutive_append_iff.mp hfront
  obtain ⟨token, hmem, hkept⟩ := h _ _ _ hgroup
  exact ⟨token, by simp [hmem], hkept⟩

theorem alwaysKeeps_single
    (h : ∀ index token, parser.Reads source index token → token.isIgnored = false)
    : AlwaysKeeps source [parser] := by
  intro start tokens stop hrun
  obtain ⟨token, others, hreads, -, rfl⟩ := consecutive_cons_iff.mp hrun
  exact ⟨token, List.mem_cons_self, h start token hreads⟩

/-- A literal always has a token to keep, since its tokens are not ignored. -/
theorem alwaysKeeps_literal (expected : Literal)
    : AlwaysKeeps source [(expected.parser : Parser α)] := by
  refine alwaysKeeps_single fun index token hreads => ?_
  obtain ⟨_, _, -, rfl⟩ := Literal.reads_iff.mp hreads
  rfl

/-- An inner sequence always has a token to keep, since its tokens are not ignored. -/
theorem alwaysKeeps_sequence (parsers : List (Parser α))
    : AlwaysKeeps source [sequence parsers none] := by
  refine alwaysKeeps_single fun index token hreads => ?_
  obtain ⟨_, _, -, -, rfl⟩ := sequence_none_reads_iff.mp hreads
  rfl

/-- The token of a sequence that read these tokens. -/
def sequenceToken (index stop : Nat) (tokens : List (Token α)) : Token α :=
  { index, size := stop - index, kind := .named "sequence", value := .tokens (kept tokens) }

theorem kept_sequenceToken
    : kept [sequenceToken index stop tokens] = [sequenceToken index stop tokens] :=
  rfl

/-- The token of a sequence ends where its run stops, if that is not before its start. -/
theorem sequenceToken_stop (h : index ≤ stop) : (sequenceToken index stop tokens).stop = stop :=
  Nat.add_sub_cancel' h

/-- A sequence that always keeps a token reads if its parsers read one after the other, since
its run never comes out empty.
-/
theorem AlwaysKeeps.sequence_reads_iff (h : AlwaysKeeps source parsers)
    : (sequence parsers none).Reads source index token
      ↔ ∃ tokens stop,
          Consecutive source parsers index tokens stop
          ∧ sequenceToken index stop tokens = token := by
  rw [sequence_none_reads_iff]
  refine exists_congr fun tokens => exists_congr fun stop => and_congr_right fun hrun => ?_
  exact and_iff_right (h.kept_ne_nil hrun)

/-- A sequence that always keeps a token fails with its run only, which never comes out empty.
-/
theorem AlwaysKeeps.sequence_fails_iff (h : AlwaysKeeps source parsers)
    : (sequence parsers none).Fails source index error
      ↔ (runSequence none source parsers index).outcome = .failed error := by
  rw [Parser.sequence_fails_iff]
  refine or_iff_right ?_
  rintro ⟨run, hrun, hitems, -⟩
  obtain ⟨front, back, tokens, rfl, hfront, hkept, hback⟩ := runSequence_matched_iff.mp hrun
  rcases hback with rfl | ⟨-, hfinds, -⟩
  · exact h.kept_ne_nil (by simpa using hfront) (hkept ▸ hitems)
  · exact not_finds_none hfinds

-----------------------------------------------------------------------------------------
-- Sequences with an inner sequence
-----------------------------------------------------------------------------------------

/-- The parsers before a group, those of the group and those after it read their tokens one after
the other.
-/
structure InParts (source : Source) (before group after : List (Parser α)) (index : Nat)
    (earlier : List (Token α)) (start : Nat) (inside : List (Token α)) (middle : Nat)
    (later : List (Token α)) (stop : Nat)
    : Prop where
  before : Consecutive source before index earlier start
  group : Consecutive source group start inside middle
  after : Consecutive source after middle later stop

/-- The parsers before a group, in it and after it read one after the other if they do in parts,
by splitting the run twice.
-/
theorem consecutive_flat_iff
    : Consecutive source (before ++ group ++ after) index tokens stop
      ↔ ∃ earlier start inside middle later,
          InParts source before group after index earlier start inside middle later stop
          ∧ tokens = earlier ++ inside ++ later := by
  simp only [consecutive_append_iff]
  constructor
  · intro h
    obtain ⟨_, middle, later, ⟨earlier, start, inside, hbefore, hgroup, rfl⟩, hafter, rfl⟩ := h
    exact ⟨earlier, start, inside, middle, later, ⟨hbefore, hgroup, hafter⟩, rfl⟩
  · intro h
    obtain ⟨earlier, start, inside, middle, later, ⟨hbefore, hgroup, hafter⟩, rfl⟩ := h
    exact ⟨_, middle, later, ⟨earlier, start, inside, hbefore, hgroup, rfl⟩, hafter, rfl⟩

section Grouping

variable (hbefore : ∀ parser ∈ before, StaysWithin source parser)
  (hgroup : ∀ parser ∈ group, StaysWithin source parser) (hkeeps : AlwaysKeeps source group)
  (hcursor : cursor ≤ source.size)

include hgroup hkeeps

/-- The inner sequence reads one token for all that its parsers read, and ends where they do,
since they never step back.
-/
theorem consecutive_inner_iff (hstart : start ≤ source.size)
    : Consecutive source [sequence group none] start tokens stop
      ↔ ∃ inside,
          Consecutive source group start inside stop
          ∧ tokens = [sequenceToken start stop inside] := by
  simp only [consecutive_cons_iff, consecutive_nil_iff, hkeeps.sequence_reads_iff]
  constructor
  · intro h
    obtain ⟨_, _, ⟨inside, middle, hinside, rfl⟩, ⟨rfl, rfl⟩, rfl⟩ := h
    rw [sequenceToken_stop (hinside.le_stop_le_size hgroup hstart).1]
    exact ⟨inside, hinside, rfl⟩
  · intro h
    obtain ⟨inside, hinside, rfl⟩ := h
    have hends : (sequenceToken start stop inside).stop = stop :=
      sequenceToken_stop (hinside.le_stop_le_size hgroup hstart).1
    exact ⟨_, [], ⟨inside, stop, hinside, rfl⟩, ⟨rfl, hends.symm⟩, rfl⟩

include hbefore in
/-- With the group as an inner sequence, its tokens come as one, and the others as they do
without: by splitting the run twice, too.
-/
theorem consecutive_nested_iff (hindex : index ≤ source.size)
    : Consecutive source (before ++ [sequence group none] ++ after) index tokens stop
      ↔ ∃ earlier start inside middle later,
          InParts source before group after index earlier start inside middle later stop
          ∧ tokens = earlier ++ [sequenceToken start middle inside] ++ later := by
  rw [consecutive_flat_iff]
  constructor
  · intro h
    obtain ⟨earlier, start, _, middle, later, ⟨hearlier, hinner, hlater⟩, rfl⟩ := h
    have hstart := (hearlier.le_stop_le_size hbefore hindex).2
    obtain ⟨inside, hinside, rfl⟩ := (consecutive_inner_iff hgroup hkeeps hstart).mp hinner
    exact ⟨earlier, start, inside, middle, later, ⟨hearlier, hinside, hlater⟩, rfl⟩
  · intro h
    obtain ⟨earlier, start, inside, middle, later, ⟨hearlier, hinside, hlater⟩, rfl⟩ := h
    have hstart := (hearlier.le_stop_le_size hbefore hindex).2
    have hinner := (consecutive_inner_iff hgroup hkeeps hstart).mpr ⟨inside, hinside, rfl⟩
    exact ⟨earlier, start, _, middle, later, ⟨hearlier, hinner, hlater⟩, rfl⟩

include hcursor

/-- A run that starts with the inner sequence fails as the run of all parsers does. At the end of
the source, the outer sequence fails before the inner one, but the parsers of the inner one could
only fail there as well.
-/
theorem runSequence_grouped_failed_iff
    : (runSequence none source (sequence group none :: after) cursor).outcome = .failed error
      ↔ (runSequence none source (group ++ after) cursor).outcome = .failed error := by
  simp only [runSequence_cons_failed_iff, runSequence_append_failed_iff,
    hkeeps.sequence_reads_iff, hkeeps.sequence_fails_iff]
  constructor
  · intro h
    rcases h with ⟨_, ⟨items, middle, hitems, rfl⟩, hafter⟩ | ⟨cause, hrun, hcause⟩
    · rw [sequenceToken_stop (hitems.le_stop_le_size hgroup hcursor).1] at hafter
      exact Or.inl ⟨items, middle, hitems, hafter⟩
    · rcases hcause with ⟨hend, rfl⟩ | ⟨-, -, rfl⟩
      · obtain rfl := Nat.le_antisymm hcursor hend
        rw [eq_unexpectedEnd_of_runSequence hgroup hrun]
        exact Or.inr hrun
      · exact Or.inr hrun
  · intro h
    rcases h with ⟨items, middle, hitems, hafter⟩ | hrun
    · refine Or.inl ⟨_, ⟨items, middle, hitems, rfl⟩, ?_⟩
      rwa [sequenceToken_stop (hitems.le_stop_le_size hgroup hcursor).1]
    · refine Or.inr ⟨error, hrun, ?_⟩
      rcases Nat.lt_or_ge cursor source.size with hinside | hend
      · exact Or.inr ⟨hinside, misses_none, rfl⟩
      · obtain rfl := Nat.le_antisymm hcursor hend
        exact Or.inl ⟨hend, eq_unexpectedEnd_of_runSequence hgroup hrun⟩

include hbefore

/-- The same holds behind other parsers, by induction on them. -/
theorem runSequence_grouped_behind_failed_iff
    : (runSequence none source (before ++ sequence group none :: after) cursor).outcome
        = .failed error
      ↔ (runSequence none source (before ++ (group ++ after)) cursor).outcome
        = .failed error := by
  induction before generalizing cursor with
  | nil => exact runSequence_grouped_failed_iff hgroup hkeeps hcursor
  | cons parser rest ih =>
      obtain ⟨hparser, hrest⟩ := List.forall_mem_cons.mp hbefore
      simp only [List.cons_append, runSequence_cons_failed_iff]
      refine or_congr_left (exists_congr fun token => and_congr_right fun htoken => ?_)
      exact ih hrest (hparser _ _ hcursor htoken).2

end Grouping

/-- The first token is that of a sequence with an inner sequence, and the second one has what the
inner sequence holds in its place. Apart from that they agree.
-/
def Regroups (source : Source) (before group : List (Parser α)) (index : Nat)
    (nested flat : Token α)
    : Prop :=
  ∃ earlier inner items later,
    Consecutive source before index earlier inner.index
    ∧ (sequence group none).Reads source inner.index inner
    ∧ inner.value = .tokens items
    ∧ nested.value = .tokens (kept earlier ++ inner :: later)
    ∧ flat = { nested with value := .tokens (kept earlier ++ items ++ later) }

/-- What is read in parts is the token with an inner sequence and the token without one, which
hold the same but for that.
-/
theorem InParts.regroups {earlier inside later : List (Token α)} {middle : Nat}
    (h : InParts source before group after index earlier start inside middle later stop)
    (hkeeps : AlwaysKeeps source group)
    : Regroups source before group index
        (sequenceToken index stop (earlier ++ [sequenceToken start middle inside] ++ later))
        (sequenceToken index stop (earlier ++ inside ++ later)) := by
  refine ⟨earlier, sequenceToken start middle inside, kept inside, kept later, h.before, ?_, rfl,
    ?_, ?_⟩
  · exact hkeeps.sequence_reads_iff.mpr ⟨inside, middle, h.group, rfl⟩
  · rw [sequenceToken, kept_append, kept_append, kept_sequenceToken, List.append_assoc,
      List.singleton_append]
  · simp only [sequenceToken, kept_append]

/-- Grouping parsers of a sequence into an inner sequence does not matter, if they stay within the
source and those of the group always have a token to keep. Either way the sequence reads if all
parsers read one after the other. It has the same span, with what the inner sequence holds in the
place of its token, or fails with the same error.
-/
theorem sequence_grouping (hbefore : ∀ parser ∈ before, StaysWithin source parser)
    (hgroup : ∀ parser ∈ group, StaysWithin source parser)
    (hkeeps : AlwaysKeeps source group) (hindex : index ≤ source.size)
    : ((∃ flat, (sequence (before ++ group ++ after) none).Reads source index flat)
        ↔ ∃ tokens stop, Consecutive source (before ++ group ++ after) index tokens stop)
      ∧ (∀ nested,
          (sequence (before ++ [sequence group none] ++ after) none).Reads source index nested
          → ∃ flat,
              (sequence (before ++ group ++ after) none).Reads source index flat
              ∧ Regroups source before group index nested flat)
      ∧ (∀ flat,
          (sequence (before ++ group ++ after) none).Reads source index flat
          → ∃ nested,
              (sequence (before ++ [sequence group none] ++ after) none).Reads source index nested
              ∧ Regroups source before group index nested flat)
      ∧ ∀ error,
          (sequence (before ++ [sequence group none] ++ after) none).Fails source index error
          ↔ (sequence (before ++ group ++ after) none).Fails source index error := by
  have hflat : AlwaysKeeps source (before ++ group ++ after) := hkeeps.surround
  have hnested : AlwaysKeeps source (before ++ [sequence group none] ++ after) :=
    (alwaysKeeps_sequence group).surround
  refine ⟨?_, ?_, ?_, ?_⟩
  · simp only [hflat.sequence_reads_iff]
    constructor
    · intro h
      obtain ⟨_, tokens, stop, hrun, -⟩ := h
      exact ⟨tokens, stop, hrun⟩
    · intro h
      obtain ⟨tokens, stop, hrun⟩ := h
      exact ⟨_, tokens, stop, hrun, rfl⟩
  · intro nested hreads
    obtain ⟨_, stop, hrun, rfl⟩ := hnested.sequence_reads_iff.mp hreads
    obtain ⟨earlier, start, inside, middle, later, hparts, rfl⟩ :=
      (consecutive_nested_iff hbefore hgroup hkeeps hindex).mp hrun
    have hall := consecutive_flat_iff.mpr ⟨earlier, start, inside, middle, later, hparts, rfl⟩
    exact ⟨_, hflat.sequence_reads_iff.mpr ⟨_, stop, hall, rfl⟩, hparts.regroups hkeeps⟩
  · intro flat hreads
    obtain ⟨_, stop, hrun, rfl⟩ := hflat.sequence_reads_iff.mp hreads
    obtain ⟨earlier, start, inside, middle, later, hparts, rfl⟩ := consecutive_flat_iff.mp hrun
    have hall := (consecutive_nested_iff hbefore hgroup hkeeps hindex).mpr
      ⟨earlier, start, inside, middle, later, hparts, rfl⟩
    exact ⟨_, hnested.sequence_reads_iff.mpr ⟨_, stop, hall, rfl⟩, hparts.regroups hkeeps⟩
  · intro error
    rw [hnested.sequence_fails_iff, hflat.sequence_fails_iff, List.append_assoc,
      List.append_assoc, List.singleton_append]
    exact runSequence_grouped_behind_failed_iff hbefore hgroup hkeeps hindex

/-- In `a(bc`, the parsers of `(b` may be grouped, since the letter is kept. In `a(` the end is
unexpected where the letter should be, grouped or not.
-/
theorem letter_in_parenthesis_groups
    : let before : List (Parser Unit) := [(Literal.exact "a").parser]
      let group : List (Parser Unit) :=
        [ignored (Literal.exact "(").parser, (Literal.exact "b").parser]
      let after : List (Parser Unit) := [(Literal.exact "c").parser]
      let nested : Token Unit :=
        ⟨0, 4, .named "sequence", .tokens [⟨0, 1, .named "text", .text "a"⟩,
          ⟨1, 2, .named "sequence", .tokens [⟨2, 1, .named "text", .text "b"⟩]⟩,
          ⟨3, 1, .named "text", .text "c"⟩]⟩
      (∀ source, ∀ parser ∈ before, StaysWithin source parser)
      ∧ (∀ source, ∀ parser ∈ group, StaysWithin source parser)
      ∧ (∀ source, AlwaysKeeps source group)
      ∧ (∃ flat,
          (sequence (before ++ group ++ after) none).Reads (Source.ofString "a(bc") 0 flat
          ∧ Regroups (Source.ofString "a(bc") before group 0 nested flat)
      ∧ (sequence (before ++ group ++ after) none).Fails (Source.ofString "a(") 0
          (.unexpectedEnd 2) := by
  intro before group after nested
  have hbefore (source : Source) : ∀ parser ∈ before, StaysWithin source parser :=
    List.forall_mem_singleton.mpr (staysWithin_literal _)
  have hgroup (source : Source) : ∀ parser ∈ group, StaysWithin source parser :=
    List.forall_mem_cons.mpr
      ⟨(staysWithin_literal _).ignored, List.forall_mem_singleton.mpr (staysWithin_literal _)⟩
  have hkeeps (source : Source) : AlwaysKeeps source group :=
    show AlwaysKeeps source ([_] ++ [_] ++ []) from (alwaysKeeps_literal _).surround
  obtain ⟨-, hflattens, -, -⟩ := sequence_grouping (hbefore (Source.ofString "a(bc"))
    (hgroup _) (hkeeps _) (Nat.zero_le _)
  obtain ⟨-, -, -, hfails⟩ := sequence_grouping (hbefore (Source.ofString "a("))
    (hgroup _) (hkeeps _) (Nat.zero_le _)
  exact ⟨hbefore, hgroup, hkeeps, hflattens nested rfl, (hfails _).mp rfl⟩

end TokenGrammar.Parser
