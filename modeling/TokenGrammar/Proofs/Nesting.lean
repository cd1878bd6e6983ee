import TokenGrammar.Grammar.Relabelling
import TokenGrammar.Proofs.Forward

/-! Token trees that are well nested: each token lies inside of the one that holds it, and tokens
that are held together are in source order. Every grammar yields such trees at every offset, also
where bytes are consumed blindly.
-/

namespace TokenGrammar

variable {α : Type}

-----------------------------------------------------------------------------------------
-- Trees
-----------------------------------------------------------------------------------------

namespace Token

/-- The tokens that the token itself holds, in the order of its value. -/
def parts (token : Token α) : List (Token α) :=
  match token.value with
  | .token inner => [inner]
  | .tokens items => items
  | _ => []

/-- The token lies inside of the span of another one. -/
def Inside (inner outer : Token α) : Prop :=
  outer.index ≤ inner.index ∧ inner.stop ≤ outer.stop

/-- A single token that the token holds lies inside of it. Several of them do so too and are in
order without overlap; there is at least one, and none of them is ignored.
-/
def HoldsParts (token : Token α) : Prop :=
  match token.value with
  | .token inner => inner.Inside token
  | .tokens items =>
      items ≠ []
      ∧ (∀ item ∈ items, item.isIgnored = false ∧ item.Inside token)
      ∧ items.Pairwise fun first second => first.stop ≤ second.index
  | _ => True

/-- The token and all tokens in it, at any depth, hold their parts. -/
inductive WellNested : Token α → Prop where
  | intro {token : Token α} (holds : token.HoldsParts)
    (each : ∀ part ∈ token.parts, WellNested part)
    : WellNested token

variable {token inner : Token α}

/-- An ignored token is well nested, since it holds no others. -/
theorem wellNested_ignored (index size : Nat) : (ignored index size : Token α).WellNested :=
  .intro trivial nofun

/-- The first one of the tokens that a well nested token holds is well nested inside of it, as
all of them are.
-/
theorem WellNested.first (h : token.WellNested) {rest : List (Token α)}
    (hvalue : token.value = .tokens (inner :: rest))
    : inner.WellNested ∧ inner.Inside token := by
  obtain ⟨holds, each⟩ := h
  rw [HoldsParts, hvalue] at holds
  obtain ⟨-, hinside, -⟩ := holds
  exact ⟨each inner (by simp [parts, hvalue]), (hinside inner (List.mem_cons_self ..)).2⟩

/-- Another label does not matter, since the value stays. -/
theorem WellNested.relabel (h : token.WellNested) (kind : Kind)
    : (token.relabel kind token.value).WellNested := by
  obtain ⟨holds, each⟩ := h
  exact .intro holds each

theorem WellNested.wrap (h : inner.WellNested) (hinside : inner.Inside token) (kind : Kind)
    : (token.relabel kind (.token inner)).WellNested := by
  refine .intro hinside ?_
  intro part hpart
  obtain rfl : part = inner := List.mem_singleton.mp hpart
  exact h

/-- The tokens lie between two offsets, in this order and without overlap, and are well nested. -/
inductive Ordered : Nat → List (Token α) → Nat → Prop where
  | nil {start stop : Nat} (le : start ≤ stop) : Ordered start [] stop
  | cons {start stop : Nat} {token : Token α} {rest : List (Token α)}
    (le : start ≤ token.index) (nested : token.WellNested) (others : Ordered token.stop rest stop)
    : Ordered start (token :: rest) stop

namespace Ordered

variable {start before stop : Nat} {tokens : List (Token α)}

/-- Ordered tokens do not end before they start, by induction on them. -/
theorem le (h : Ordered start tokens stop) : start ≤ stop := by
  induction h with
  | nil hle => exact hle
  | @cons start stop token rest hle _ _ ih =>
      have : token.index ≤ token.stop := Nat.le_add_right ..
      omega

/-- Ordered tokens lie behind any earlier offset as well. -/
theorem from_le (h : Ordered start tokens stop) (hle : before ≤ start)
    : Ordered before tokens stop := by
  cases h with
  | nil hle' => exact .nil (Nat.le_trans hle hle')
  | cons hle' nested others => exact .cons (Nat.le_trans hle hle') nested others

/-- Each of the tokens lies between the offsets and is well nested, by induction on them. -/
theorem of_mem (h : Ordered start tokens stop) (hmem : token ∈ tokens)
    : start ≤ token.index ∧ token.stop ≤ stop ∧ token.WellNested := by
  induction h with
  | nil => contradiction
  | @cons start stop first rest hle nested others ih =>
      rcases List.mem_cons.mp hmem with rfl | hrest
      · exact ⟨hle, others.le, nested⟩
      · obtain ⟨hstart, hstop, hnested⟩ := ih hrest
        have : first.index ≤ first.stop := Nat.le_add_right ..
        exact ⟨by omega, hstop, hnested⟩

/-- Of any two ordered tokens, the first one ends before the second one starts, by induction on
them.
-/
theorem pairwise (h : Ordered start tokens stop)
    : tokens.Pairwise fun first second => first.stop ≤ second.index := by
  induction h with
  | nil => exact .nil
  | cons _ _ others ih => exact .cons (fun _ hmem => (others.of_mem hmem).1) ih

/-- Leaving tokens out does not put the others out of order, by induction on them. -/
theorem kept (h : Ordered start tokens stop) : Ordered start (Parser.kept tokens) stop := by
  induction h with
  | nil hle => exact .nil hle
  | @cons start stop token rest hle nested others ih =>
      rw [Parser.kept_cons]
      split
      case isTrue =>
        have : token.index ≤ token.stop := Nat.le_add_right ..
        exact ih.from_le (by omega)
      case isFalse => exact .cons hle nested ih

/-- The token of a run holds what the run keeps, which is in order from its start to its end. -/
theorem wellNested (h : Ordered start tokens stop) (hkept : Parser.kept tokens ≠ [])
    (kind : Kind)
    : WellNested ⟨start, stop - start, kind, .tokens (Parser.kept tokens)⟩ := by
  have hend : start + (stop - start) = stop := Nat.add_sub_cancel' h.le
  refine .intro ⟨hkept, ?_, h.kept.pairwise⟩ fun item hitem => (h.kept.of_mem hitem).2.2
  intro item hitem
  obtain ⟨hstart, hstop, -⟩ := h.kept.of_mem hitem
  refine ⟨?_, hstart, ?_⟩
  · simpa using (List.mem_filter.mp hitem).2
  · exact Nat.le_trans hstop (Nat.le_of_eq hend.symm)

end Ordered

end Token

-----------------------------------------------------------------------------------------
-- Parsers
-----------------------------------------------------------------------------------------

namespace Parser

variable {source : Source} {parser : Parser α} {parsers : List (Parser α)}

/-- The parser yields well nested tokens, each starting where the parser was started. -/
def Nests (source : Source) (parser : Parser α) : Prop :=
  ∀ {index token}, parser.Reads source index token → token.index = index ∧ token.WellNested

/-- The change leaves tokens where they are and well nested. -/
def KeepsNesting (change : Token α → Except ParseError (Token α)) : Prop :=
  ∀ {token changed},
    change token = .ok changed
    → token.WellNested
    → changed.index = token.index ∧ changed.WellNested

theorem Nests.forward (h : parser.Nests source) : parser.Forward source :=
  fun hreads => le_stop_of_index_eq (h hreads).1

/-- A literal reads a token that starts where it was looked for and holds no others. -/
theorem nests_literal (expected : Literal) : (expected.parser : Parser α).Nests source := by
  intro index token hreads
  obtain ⟨_, -, -, rfl⟩ := Literal.reads_iff.mp hreads
  exact ⟨rfl, .intro trivial nofun⟩

theorem nests_pattern (expected : Pattern) : (expected.parser : Parser α).Nests source := by
  intro index token hreads
  obtain ⟨_, _, -, -, rfl⟩ := Pattern.reads_iff.mp hreads
  exact ⟨rfl, .intro trivial nofun⟩

/-- An emitted token starts where it was asked for and holds no others. -/
theorem nests_emit (size : Nat) (kind : Kind) : (emit size kind .none : Parser α).Nests source := by
  intro index token hreads
  obtain rfl := Outcome.matched.inj hreads
  exact ⟨rfl, .intro trivial nofun⟩

/-- Ignoring nests, since nothing is left in the token. -/
theorem Nests.ignored (h : parser.Nests source) : (ignored parser).Nests source := by
  intro index token hreads
  obtain ⟨inner, hinner, rfl⟩ := ignored_reads_iff.mp hreads
  exact ⟨(h hinner).1, Token.wellNested_ignored ..⟩

/-- An option nests, since the empty token that stands for nothing holds no others. -/
theorem Nests.optional (h : parser.Nests source) : (optional parser).Nests source := by
  intro index token hreads
  rcases optional_reads_iff.mp hreads with hinner | ⟨-, rfl⟩
  · exact h hinner
  · exact ⟨rfl, Token.wellNested_ignored ..⟩

theorem Nests.refine {change : Token α → Except ParseError (Token α)} (h : parser.Nests source)
    (hchange : KeepsNesting change)
    : (refine change parser).Nests source := by
  intro index token hreads
  obtain ⟨inner, hinner, hok⟩ := refine_reads_iff.mp hreads
  obtain ⟨hindex, hnested⟩ := h hinner
  obtain ⟨hsame, hchanged⟩ := hchange hok hnested
  exact ⟨hsame.trans hindex, hchanged⟩

/-- A choice nests if its parsers do, for its token is one of theirs. -/
theorem nests_choice (h : ∀ parser ∈ parsers, parser.Nests source)
    : (choice parsers).Nests source := by
  intro index token hreads
  obtain ⟨parser, hmem, hparser⟩ := exists_mem_of_choice_reads hreads
  exact h parser hmem hparser

/-- What parsers read one after the other is in order, by induction on the parsers. -/
theorem Consecutive.ordered {cursor stop : Nat} {tokens : List (Token α)}
    (hrun : Consecutive source parsers cursor tokens stop)
    (h : ∀ parser ∈ parsers, parser.Nests source)
    : Token.Ordered cursor tokens stop := by
  induction hrun with
  | nil => exact .nil (Nat.le_refl _)
  | cons first _ ih =>
      obtain ⟨hfirst, hrest⟩ := List.forall_mem_cons.mp h
      obtain ⟨hindex, hnested⟩ := hfirst first
      exact .cons (Nat.le_of_eq hindex.symm) hnested (ih hrest)

/-- A sequence nests if its parsers do, since they read their tokens in order. -/
theorem nests_sequence (ahead : Option (Parser α)) (h : ∀ parser ∈ parsers, parser.Nests source)
    : (sequence parsers ahead).Nests source := by
  intro index token hreads
  obtain ⟨run, hrun, hne, rfl⟩ := sequence_reads_iff.mp hreads
  obtain ⟨front, back, tokens, rfl, hfront, hitems, -⟩ := runSequence_matched_iff.mp hrun
  have hordered : Token.Ordered index tokens run.stop :=
    hfront.ordered fun parser hmem => h parser (List.mem_append_left _ hmem)
  rw [hitems] at hne ⊢
  exact ⟨rfl, hordered.wellNested hne _⟩

section Lists

variable {item : Parser α} {delimiter ahead : Option (Parser α)} {cursor stop : Nat}

/-- A round reads a token in front of where it ends, because the delimiter does not step back.
-/
theorem Round.nests {token : Token α} {next : Nat}
    (round : Round item delimiter ahead source cursor token next) (hitem : item.Nests source)
    (hdelimiter : ∀ parser ∈ delimiter, parser.Nests source)
    : token.index = cursor ∧ token.WellNested ∧ token.stop ≤ next := by
  obtain ⟨hindex, hnested⟩ := hitem round.reads
  have hforward : ∀ parser ∈ delimiter, parser.Forward source :=
    fun parser hmem => Nests.forward (hdelimiter parser hmem)
  exact ⟨hindex, hnested, round.passes.le_next hforward⟩

/-- The items of a list are in order, by induction on its rounds. -/
theorem Rounds.ordered {tokens : List (Token α)}
    (hrounds : Rounds item delimiter ahead source cursor tokens stop)
    (hitem : item.Nests source) (hdelimiter : ∀ parser ∈ delimiter, parser.Nests source)
    : Token.Ordered cursor tokens stop := by
  induction hrounds with
  | exhausted => exact .nil (Nat.le_refl _)
  | found _ reads | undelimited _ reads =>
      obtain ⟨hindex, hnested⟩ := hitem reads
      exact .cons (Nat.le_of_eq hindex.symm) hnested (.nil (Nat.le_refl _))
  | stalled round =>
      obtain ⟨hindex, hnested, hle⟩ := round.nests hitem hdelimiter
      exact .cons (Nat.le_of_eq hindex.symm) hnested (.nil hle)
  | next round _ _ ih =>
      obtain ⟨hindex, hnested, hle⟩ := round.nests hitem hdelimiter
      exact .cons (Nat.le_of_eq hindex.symm) hnested (ih.from_le hle)

/-- A list nests if its item and its delimiter do, since its rounds read their tokens in order.
-/
theorem nests_list (ahead : Option (Parser α)) (hitem : item.Nests source)
    (hdelimiter : ∀ parser ∈ delimiter, parser.Nests source)
    : (list item delimiter ahead).Nests source := by
  intro index token hreads
  obtain ⟨tokens, stop, hrounds, hne, rfl⟩ := exists_rounds_of_list_reads hreads
  exact ⟨rfl, (hrounds.ordered hitem hdelimiter).wellNested hne _⟩

end Lists

end Parser

-----------------------------------------------------------------------------------------
-- Grammars and languages
-----------------------------------------------------------------------------------------

section Grammars

variable {ρ κ : Type} {source : Source}

/-- A grammar nests its tokens if its rules do and its actions keep that, by induction on the
grammar.
-/
theorem Grammar.nests {perform : κ → Token α → Except ParseError (Token α)}
    {resolve : ρ → Parser α} (hperform : ∀ action, Parser.KeepsNesting (perform action))
    (hresolve : ∀ name, (resolve name).Nests source) (grammar : Grammar ρ κ)
    : (grammar.parser perform resolve).Nests source := by
  induction grammar with
  | literal expected => exact Parser.nests_literal expected
  | pattern expected => exact Parser.nests_pattern expected
  | fail message =>
      intro index token hreads
      contradiction
  | emit size kind => exact Parser.nests_emit size kind
  | ignored body ih => exact ih.ignored
  | optional body ih => exact ih.optional
  | choice bodies ih =>
      rw [parser, parsers_eq_map]
      exact Parser.nests_choice (by simpa using ih)
  | sequence bodies ahead ih =>
      rw [parser, parsers_eq_map]
      exact Parser.nests_sequence _ (by simpa using ih)
  | list item delimiter ahead ihItem ihDelimiter =>
      rw [parser, parser?_eq_map]
      exact Parser.nests_list _ ihItem (by simpa using ihDelimiter)
  | act action body ih => exact ih.refine (hperform action)
  | reword rewording body ih =>
      intro index token hreads
      exact ih (Parser.reword_reads_iff.mp hreads)
  | rule name => exact hresolve name

/-- Rules nest their tokens, however deep they may be nested themselves, by induction on the
depth.
-/
theorem Language.rule_nests {language : Language ρ κ α}
    (hperform : ∀ action, Parser.KeepsNesting (language.perform action)) (depth : Nat) (name : ρ)
    : (language.rule depth name).Nests source := by
  refine rule_induction (fun _ parser => parser.Nests source) ?_ ?_ depth name
  · intro name index token hreads
    contradiction
  · intro depth name body _ ih
    exact body.nests hperform ih

end Grammars

/-- The new value of a token only holds tokens that the token held, or the token itself, by
cases on the projection.
-/
theorem Projection.eq_or_mem_of_mem_parts {token part : Token Int64} {projection : Projection}
    {kind : Kind} (hpart : part ∈ (token.relabel kind (projection.apply token)).parts)
    : part = token ∨ part ∈ token.parts := by
  cases projection with
  | none | full | capture | count | size => contradiction
  | keep => exact Or.inr hpart
  | wrap => exact Or.inl (List.mem_singleton.mp hpart)
  | first =>
      rw [apply] at hpart
      split at hpart
      case h_1 item rest hvalue =>
        obtain rfl := List.mem_singleton.mp hpart
        exact Or.inr (by simp [Token.parts, hvalue])
      case h_2 => contradiction
  | integer =>
      rw [apply] at hpart
      cases hvalue : int64? token.value.fullText.toList <;> rw [hvalue] at hpart <;> contradiction

/-- A token with a new value still holds its parts as they should be, by cases on the
projection: what it now holds is itself or lay inside of it.
-/
theorem Projection.wellNested_relabel {token : Token Int64} (h : token.WellNested)
    (projection : Projection) (kind : Kind)
    : (token.relabel kind (projection.apply token)).WellNested := by
  cases projection with
  | none | full | capture | count | size => exact .intro trivial nofun
  | keep => exact h.relabel kind
  | wrap => exact h.wrap ⟨Nat.le_refl _, Nat.le_refl _⟩ kind
  | first =>
      simp only [apply]
      split
      case h_1 item rest hvalue =>
        obtain ⟨hitem, hinside⟩ := h.first hvalue
        exact hitem.wrap hinside kind
      case h_2 => exact .intro trivial nofun
  | integer =>
      simp only [apply]
      cases int64? token.value.fullText.toList with
      | none => exact .intro trivial nofun
      | some value => exact .intro trivial nofun

/-- Relabellings keep tokens well nested, by cases on what they change. -/
theorem Relabelling.keepsNesting (relabelling : Relabelling)
    : Parser.KeepsNesting fun token => .ok (relabelling.apply token) := by
  intro token changed hok hnested
  obtain rfl := Except.ok.inj hok
  cases relabelling with
  | produce name projection => exact ⟨rfl, projection.wellNested_relabel hnested _⟩
  | label name => exact ⟨rfl, hnested.relabel _⟩
  | ignore => exact ⟨rfl, Token.wellNested_ignored ..⟩
  | same => exact ⟨rfl, hnested⟩

/-- Whatever a grammar with relabellings reads, at any offset, is a well nested token: the tokens
in it, at any depth, lie inside of those that hold them, and where several are held together,
they are in source order without overlap, and none of them is ignored.
-/
theorem Language.token_wellNested {rules : List (String × Grammar String Relabelling)}
    {grammar : Grammar String Relabelling} {source : Source} {index : Nat} {token : Token Int64}
    (hreads : ((ofRules rules).parser grammar source index).outcome = .matched token)
    : token.WellNested := by
  have hrules (depth : Nat) (name : String) : ((ofRules rules).rule depth name).Nests source :=
    rule_nests Relabelling.keepsNesting depth name
  have hparser
      : ((ofRules rules).parserWithin ((ofRules rules).depth source.size) grammar).Nests source :=
    grammar.nests Relabelling.keepsNesting (hrules _)
  exact (hparser hreads).2

/-- A rule for letters and such entries behind a parenthesis. It consumes three bytes blindly in
place of the closing one.
-/
def entryRules : List (String × Grammar String Relabelling) :=
  [("entry",
    .act (.produce "entry" .wrap)
      (.sequence
        [.ignored (.literal (.exact "(")),
          .list (.choice [.rule "entry", .literal (.exact "é")])
            (some (.literal (.exact ","))) none,
          .emit 3 (.named "blind")]
        none))]

/-- In `(é,(é`, the outer entry holds the inner one, and both end past the end of the source. -/
theorem entry_wellNested
    : let parser := (Language.ofRules entryRules).parser (.rule "entry")
      let source := Source.ofString "(é,(é"
      ∃ token,
        (parser source 0).outcome = .matched token
        ∧ source.size = 7
        ∧ token.stop = 13
        ∧ token.WellNested := by
  intro parser source
  have hstop : (parser source 0).outcome.result?.map Token.stop = some 13 := by
    decide +kernel
  obtain ⟨token, hresult, hstop⟩ := Option.map_eq_some_iff.mp hstop
  have hreads := Outcome.result?_eq_some_iff.mp hresult
  exact ⟨token, hreads, rfl, hstop, Language.token_wellNested hreads⟩

end TokenGrammar
