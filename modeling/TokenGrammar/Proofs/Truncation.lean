import TokenGrammar.Proofs.Alternation

/-! Lists with and without a lookahead. The two go through the same rounds until the lookahead
matches behind an item, so the lookahead takes items away from the end of a list and adds none.
-/

namespace TokenGrammar

variable {α : Type}

/-- A token that holds the first ones of the tokens that another one holds, from the same start up
to the end of that one at most.
-/
structure Token.Truncates (shorter token : Token α) : Prop where
  index_eq : shorter.index = token.index
  stop_le : shorter.stop ≤ token.stop
  kind_eq : shorter.kind = token.kind
  items
    : ∃ front items,
        shorter.value = .tokens front ∧ token.value = .tokens items ∧ front <+: items

namespace Parser

section Relations

variable (item : Parser α) (delimiter : Option (Parser α)) (look : Parser α) (source : Source)

/-- With the lookahead, the list stops early: after the first ones of the given tokens, and not
behind the given stop. Unless that is where it stops anyway, the lookahead matches there.
-/
structure StopsEarly (index : Nat) (tokens : List (Token α)) (stop : Nat)
    (front : List (Token α)) (early : Nat) : Prop where
  rounds : Rounds item delimiter (some look) source index front early
  isPrefix : front <+: tokens
  early_le : early ≤ stop
  same_or_finds : front = tokens ∨ Finds (some look) source early

/-- After some rounds that go on, the lookahead is started behind an item and comes to no answer. -/
def AheadWaits (index : Nat) : Prop :=
  ∃ front cursor token,
    Attempts item delimiter (some look) source index front cursor
    ∧ item.Reads source cursor token
    ∧ (look source token.stop).outcome = .unresolved

end Relations

variable {item look : Parser α} {delimiter : Option (Parser α)} {source : Source}
  {index cursor next stop : Nat} {token : Token α} {tokens : List (Token α)}

/-- A lookahead matches, fails or comes to no answer, by cases on its outcome. -/
theorem finds_or_misses_or_waits (look : Parser α) (source : Source) (cursor : Nat)
    : Finds (some look) source cursor
      ∨ Misses (some look) source cursor
      ∨ (look source cursor).outcome = .unresolved := by
  cases houtcome : (look source cursor).outcome with
  | matched token => exact Or.inl ⟨look, rfl, token, houtcome⟩
  | failed error =>
      refine Or.inr (Or.inl fun parser hparser => ⟨error, ?_⟩)
      obtain rfl := Option.some.inj hparser
      exact houtcome
  | unresolved => exact Or.inr (Or.inr rfl)

/-- A round is one of the list with another lookahead, too, where that misses behind the item. -/
theorem Round.with_ahead {ahead other : Option (Parser α)}
    (round : Round item delimiter ahead source cursor token next)
    (hmisses : Misses other source token.stop)
    : Round item delimiter other source cursor token next :=
  ⟨round.inside, round.reads, hmisses, round.passes⟩

/-- If an item fails in spite of a lookahead, it also fails without one, by induction on the
rounds before it.
-/
theorem ItemFails.without_ahead {ahead : Option (Parser α)} {error : ParseError}
    (h : ItemFails item delimiter ahead source cursor error)
    : ItemFails item delimiter none source cursor error := by
  induction h with
  | here inside fails => exact .here inside fails
  | next round progress _ ih => exact .next (round.with_ahead misses_none) progress ih

/-- One more round in front of a list that stops early is in front of both lists. -/
theorem StopsEarly.cons {front : List (Token α)} {early : Nat}
    (round : Round item delimiter (some look) source cursor token next)
    (progress : next ≠ cursor)
    (h : StopsEarly item delimiter look source next tokens stop front early)
    : StopsEarly item delimiter look source cursor (token :: tokens) stop (token :: front)
        early where
  rounds := .next round progress h.rounds
  isPrefix := List.cons_prefix_cons.mpr ⟨rfl, h.isPrefix⟩
  early_le := h.early_le
  same_or_finds := h.same_or_finds.imp_left (congrArg _)

/-- One more round in front of a list that waits for its lookahead, which does so at the same
cursor.
-/
theorem AheadWaits.cons (round : Round item delimiter (some look) source cursor token next)
    (progress : next ≠ cursor) (h : AheadWaits item delimiter look source next)
    : AheadWaits item delimiter look source cursor := by
  obtain ⟨front, middle, waiting, ⟨hleads, inside⟩, hreads, hwaits⟩ := h
  exact ⟨_, middle, waiting, ⟨.next round progress hleads, inside⟩, hreads, hwaits⟩

section Runs

variable (hitem : item.Forward source)
  (hdelimiter : ∀ parser ∈ delimiter, parser.Forward source)

include hitem hdelimiter

/-- A list that stops without a lookahead stops early with one, or waits for it: by induction on
its rounds, each of which either is one of the list with lookahead, too, or is where that stops.
-/
theorem Rounds.stops_early (h : Rounds item delimiter none source cursor tokens stop)
    (look : Parser α)
    : (∃ front early, StopsEarly item delimiter look source cursor tokens stop front early)
      ∨ AheadWaits item delimiter look source cursor := by
  induction h with
  | exhausted outside =>
      exact Or.inl ⟨[], _, .exhausted outside, List.prefix_rfl, Nat.le_refl _, Or.inl rfl⟩
  | found _ _ finds => exact absurd finds not_finds_none
  | @undelimited cursor token inside reads _ stops =>
      rcases finds_or_misses_or_waits look source token.stop with hfinds | hmisses | hwaits
      · exact Or.inl ⟨[token], token.stop, .found inside reads hfinds, List.prefix_rfl,
          Nat.le_refl _, Or.inl rfl⟩
      · exact Or.inl ⟨[token], token.stop, .undelimited inside reads hmisses stops,
          List.prefix_rfl, Nat.le_refl _, Or.inl rfl⟩
      · exact Or.inr ⟨[], cursor, token, ⟨.refl, inside⟩, reads, hwaits⟩
  | @stalled cursor token round =>
      rcases finds_or_misses_or_waits look source token.stop with hfinds | hmisses | hwaits
      · exact Or.inl ⟨[token], token.stop, .found round.inside round.reads hfinds,
          List.prefix_rfl, round.passes.le_next hdelimiter, Or.inl rfl⟩
      · exact Or.inl ⟨[token], cursor, .stalled (round.with_ahead hmisses), List.prefix_rfl,
          Nat.le_refl _, Or.inl rfl⟩
      · exact Or.inr ⟨[], cursor, token, ⟨.refl, round.inside⟩, round.reads, hwaits⟩
  | @next cursor next stop token tokens round progress others ih =>
      rcases finds_or_misses_or_waits look source token.stop with hfinds | hmisses | hwaits
      · have hnext : token.stop ≤ next := round.passes.le_next hdelimiter
        have hstop : next ≤ stop := others.le_stop hitem hdelimiter
        exact Or.inl ⟨[token], token.stop, .found round.inside round.reads hfinds,
          ⟨tokens, rfl⟩, Nat.le_trans hnext hstop, Or.inr hfinds⟩
      · have hround := round.with_ahead hmisses
        refine ih.imp ?_ (AheadWaits.cons hround progress)
        rintro ⟨front, early, hearly⟩
        exact ⟨token :: front, early, hearly.cons hround progress⟩
      · exact Or.inr ⟨[], cursor, token, ⟨.refl, round.inside⟩, round.reads, hwaits⟩

/-- A list that stops does not fail with the error of an item, because it comes to one outcome
only.
-/
theorem Rounds.not_itemFails {ahead : Option (Parser α)} {error : ParseError}
    (h : Rounds item delimiter ahead source cursor tokens stop)
    : ¬ ItemFails item delimiter ahead source cursor error := by
  intro hfails
  have hmatched := runList_of_rounds h hitem hdelimiter (Nat.le_refl _)
  have hfailed := runList_of_itemFails hitem hdelimiter hfails (Nat.le_refl _)
  rw [hmatched] at hfailed
  contradiction

/-- A list that waits for its lookahead comes to no answer, since its rounds are enough to lead
there.
-/
theorem AheadWaits.list_unresolved (h : AheadWaits item delimiter look source index)
    : (list item delimiter (some look) source index).outcome = .unresolved := by
  obtain ⟨front, cursor, token, ⟨hleads, inside⟩, hreads, hwaits⟩ := h
  refine Reply.outcome_bind_eq_unresolved_iff.mpr (Or.inl ?_)
  exact (runList_unresolved_iff hitem hdelimiter (Nat.le_refl _)).mpr
    ⟨front, cursor, hleads, .ahead inside hreads rfl hwaits⟩

end Runs

/-- A lookahead only truncates a list. Where the list reads a token without it, the list with it
never fails with the error of an item. It reads a token from the same start that ends no later and
holds the first ones of the same items, or it fails because the lookahead matches behind items that
are all ignored; it comes to no answer only where the lookahead, started behind an item, comes to
none.
-/
theorem list_truncated_by_ahead (look : Parser α) (hitem : item.Forward source)
    (hdelimiter : ∀ parser ∈ delimiter, parser.Forward source)
    (hreads : (list item delimiter none).Reads source index token)
    : (∀ error, ¬ ItemFails item delimiter (some look) source index error)
      ∧ ((∃ shorter,
            (list item delimiter (some look)).Reads source index shorter
            ∧ shorter.Truncates token)
        ∨ (∃ ignored stop,
            (list item delimiter (some look)).Fails source index (.emptyList stop)
            ∧ Rounds item delimiter (some look) source index ignored stop
            ∧ (∀ token ∈ ignored, token.isIgnored)
            ∧ Finds (some look) source stop
            ∧ stop ≤ token.stop)
        ∨ (list item delimiter (some look) source index).outcome = .unresolved
          ∧ AheadWaits item delimiter look source index) := by
  obtain ⟨tokens, stop, hrounds, hkept, rfl⟩ := exists_rounds_of_list_reads hreads
  have hstop : index + (stop - index) = stop :=
    Nat.add_sub_cancel' (hrounds.le_stop hitem hdelimiter)
  refine ⟨fun error hfails => ?_, ?_⟩
  · exact hrounds.not_itemFails hitem hdelimiter hfails.without_ahead
  rcases hrounds.stops_early hitem hdelimiter look with ⟨front, early, hearly⟩ | hwaits
  · have hle : index ≤ early := hearly.rounds.le_stop hitem hdelimiter
    by_cases hfront : kept front = []
    · refine Or.inr (Or.inl ⟨front, early, ?_, hearly.rounds, kept_eq_nil_iff.mp hfront, ?_,
        Nat.le_trans hearly.early_le (Nat.le_of_eq hstop.symm)⟩)
      · refine Reply.outcome_bind_eq_failed_iff.mpr (Or.inl ⟨⟨kept front, early⟩, ?_, ?_⟩)
        · exact runList_of_rounds hearly.rounds hitem hdelimiter (Nat.le_refl _)
        · exact Run.close_failed_iff.mpr ⟨hfront, rfl⟩
      · rcases hearly.same_or_finds with rfl | hfinds
        · exact absurd hfront hkept
        · exact hfinds
    · refine Or.inl ⟨_, list_reads_of_rounds hearly.rounds hitem hdelimiter hfront, rfl, ?_, rfl,
        kept front, kept tokens, rfl, rfl, hearly.isPrefix.filter _⟩
      calc index + (early - index) = early := Nat.add_sub_cancel' hle
        _ ≤ stop := hearly.early_le
        _ = index + (stop - index) := hstop.symm
  · exact Or.inr (Or.inr ⟨hwaits.list_unresolved hitem hdelimiter, hwaits⟩)

/-- In `é,é;é` the lookahead takes away the semicolon and the letter behind it. -/
theorem letters_truncated_by_semicolon
    : let item : Parser Unit := choice [(Literal.exact "é").parser, (Literal.exact ";").parser]
      let delimiter : Option (Parser Unit) := some (optional (Literal.exact ",").parser)
      let look : Parser Unit := (Literal.exact ";").parser
      let source := Source.ofString "é,é;é"
      let first : Token Unit := ⟨0, 2, .named "text", .text "é"⟩
      let second : Token Unit := ⟨3, 2, .named "text", .text "é"⟩
      let others : List (Token Unit) :=
        [⟨5, 1, .named "text", .text ";"⟩, ⟨6, 2, .named "text", .text "é"⟩]
      let token : Token Unit := ⟨0, 8, .named "list", .tokens (first :: second :: others)⟩
      item.Forward source
      ∧ (∀ parser ∈ delimiter, parser.Forward source)
      ∧ (list item delimiter none).Reads source 0 token
      ∧ (list item delimiter (some look)).Reads source 0
          ⟨0, 5, .named "list", .tokens [first, second]⟩
      ∧ ∃ shorter,
          (list item delimiter (some look)).Reads source 0 shorter ∧ shorter.Truncates token := by
  intro item delimiter look source first second others token
  have hitem : item.Forward source := by
    refine forward_choice fun parser hparser => ?_
    rcases List.mem_pair.mp hparser with rfl | rfl <;> exact Literal.forward _
  have hdelimiter : ∀ parser ∈ delimiter, parser.Forward source := by
    intro parser hparser
    obtain rfl := Option.some.inj hparser
    exact Forward.optional (Literal.forward _)
  have hreads : (list item delimiter none).Reads source 0 token := rfl
  have hshorter
      : (list item delimiter (some look)).Reads source 0
          ⟨0, 5, .named "list", .tokens [first, second]⟩ :=
    rfl
  refine ⟨hitem, hdelimiter, hreads, hshorter, ?_⟩
  obtain ⟨-, h | ⟨_, _, hfails, -⟩ | ⟨hwaits, -⟩⟩ :=
    list_truncated_by_ahead look hitem hdelimiter hreads
  · exact h
  · have := hshorter.symm.trans hfails
    contradiction
  · have := hshorter.symm.trans hwaits
    contradiction

end Parser

end TokenGrammar
