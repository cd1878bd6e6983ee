import TokenGrammar.Proofs.Entries
import TokenGrammar.Proofs.Moves

/-! Reading the same text elsewhere. Where two sources go on alike, some bytes apart, a grammar
that does not look back reads the same tokens from both, as many bytes apart, and fails with the
same kinds of errors at the same distance.
-/

namespace TokenGrammar

variable {α β : Type} {distance : Nat}

-----------------------------------------------------------------------------------------
-- Sources that go on alike
-----------------------------------------------------------------------------------------

/-- From the start on, the other source has the same text at each offset so many bytes further on,
and as much of it is left there.
-/
structure Source.Aligned (source other : Source) (distance start : Nat) : Prop where
  rest : ∀ {offset}, start ≤ offset → other.rest? (distance + offset) = source.rest? offset
  left : ∀ {offset}, start ≤ offset → other.size - (distance + offset) = source.size - offset

/-- Both sources end at offsets so many bytes apart, since as much of them is left. -/
theorem Source.Aligned.size_le_iff {source other : Source} {start offset : Nat}
    (h : source.Aligned other distance start) (hstart : start ≤ offset)
    : other.size ≤ distance + offset ↔ source.size ≤ offset := by
  have := h.left hstart
  omega

namespace Parser

section Relocation

variable (agrees : ParseError → ParseError → Prop) (source other : Source) (distance start : Nat)

/-- From the start on, the parser does the same on the other source so many bytes further on, up to
errors that are related.
-/
def Relocates (parser : Parser α) : Prop :=
  ∀ index,
    start ≤ index
    → Outcome.MovesTo agrees (Token.moved distance) (parser source index).outcome
        (parser other (distance + index)).outcome

end Relocation

variable {agrees : ParseError → ParseError → Prop} {source other : Source} {start index : Nat}
  {parser : Parser α} {parsers : List (Parser α)} {delimiter ahead : Option (Parser α)}

-----------------------------------------------------------------------------------------
-- Leaves
-----------------------------------------------------------------------------------------

/-- A literal only looks at the text that comes next, by cases on whether there is any at the
offset.
-/
theorem relocates_literal (hagrees : ParseError.Agreement distance agrees)
    (h : source.Aligned other distance start) (expected : Literal)
    : (expected.parser : Parser α).Relocates agrees source other distance start := by
  intro index hstart
  have hother := h.rest hstart
  cases hrest : source.rest? index with
  | none =>
      rw [hrest] at hother
      rw [expected.fails_of_rest?_eq_none hrest, expected.fails_of_rest?_eq_none hother]
      exact .failed (hagrees.moves (.leaf rfl rfl rfl rfl))
  | some rest =>
      rw [hrest] at hother
      by_cases haccepts : expected.accepts (rest.take expected.text.length)
      · rw [Literal.reads_iff.mpr ⟨rest, hrest, haccepts, rfl⟩,
          Literal.reads_iff.mpr ⟨rest, hother, haccepts, rfl⟩]
        exact .matched _
      · rw [Literal.fails_iff.mpr (Or.inr ⟨rest, hrest, haccepts, rfl⟩),
          Literal.fails_iff.mpr (Or.inr ⟨rest, hother, haccepts, rfl⟩)]
        exact .failed (hagrees.moves (.leaf rfl rfl rfl rfl))

/-- A pattern that does not look back only looks at the text that comes next, by the matcher's own
promise.
-/
theorem relocates_pattern (hagrees : ParseError.Agreement distance agrees)
    (h : source.Aligned other distance start) {expected : Pattern}
    (honward : expected.matcher.looksBack = false)
    : (expected.parser : Parser α).Relocates agrees source other distance start := by
  intro index hstart
  have hother := h.rest hstart
  cases hrest : source.rest? index with
  | none =>
      rw [hrest] at hother
      rw [expected.fails_of_rest?_eq_none hrest, expected.fails_of_rest?_eq_none hother]
      exact .failed (hagrees.moves (.leaf rfl rfl rfl rfl))
  | some rest =>
      rw [hrest] at hother
      obtain ⟨place, hplace, rfl⟩ := Source.exists_at?_of_rest? hrest
      obtain ⟨place', hplace', hafter⟩ := Source.exists_at?_of_rest? hother
      simp only [Pattern.parser, hplace, hplace', hafter, expected.matcher.onward honward hafter]
      cases expected.matcher.match? place with
      | none => exact .failed (hagrees.moves (.leaf rfl rfl rfl rfl))
      | some found => exact .matched _

theorem relocates_fail (hagrees : ParseError.Agreement distance agrees) (message : String)
    : (fail message : Parser α).Relocates agrees source other distance start :=
  fun _ _ => .failed (hagrees.moves (.leaf rfl rfl rfl rfl))

theorem relocates_emit (size : Nat) (kind : Kind)
    : (emit size kind .none : Parser α).Relocates agrees source other distance start :=
  fun _ _ => .matched _

theorem relocates_unresolved
    : Relocates agrees source other distance start (fun _ _ => .unresolved : Parser α) :=
  fun _ _ => .unresolved

-----------------------------------------------------------------------------------------
-- One parser and ordered choice
-----------------------------------------------------------------------------------------

/-- Ignoring moves along, since a token is ignored further on as it is here. -/
theorem Relocates.ignored (h : parser.Relocates agrees source other distance start)
    : (ignored parser).Relocates agrees source other distance start :=
  fun index hstart => (h index hstart).map fun token => token.moved_ignore

/-- An option moves along, with the empty token that stands for nothing. -/
theorem Relocates.optional (h : parser.Relocates agrees source other distance start)
    : (optional parser).Relocates agrees source other distance start :=
  fun index hstart => (h index hstart).recover fun _ _ _ => .matched (Token.ignored index 0)

/-- A change that moves along does so behind a parser that does, by cases on whether it accepts
the token.
-/
theorem Relocates.refine (hagrees : ParseError.Agreement distance agrees)
    {change : Token α → Except ParseError (Token α)}
    (h : parser.Relocates agrees source other distance start) (hchange : MovesAlong distance change)
    : (refine change parser).Relocates agrees source other distance start := by
  refine fun index hstart => (h index hstart).bind fun token _ => ?_
  cases hresult : change token with
  | ok changed =>
      rw [hchange.accepted hresult]
      exact .matched changed
  | error error =>
      obtain ⟨moved, hmoved, hmoves⟩ := hchange.rejected hresult
      rw [hmoved]
      exact .failed (hagrees.moves hmoves)

/-- Errors that are related stay so if they are worded anew in the same way. -/
theorem Relocates.reword {change : ParseError → ParseError}
    (h : parser.Relocates agrees source other distance start)
    (hchange : RelatesErrors agrees change)
    : (reword change parser).Relocates agrees source other distance start :=
  fun index hstart => (h index hstart).recover fun _ _ related => .failed (hchange related)

/-- Alternatives are tried alike after errors that are as far apart, by induction on them. -/
theorem movesTo_choiceAfter (hagrees : ParseError.Agreement distance agrees)
    (h : ∀ parser ∈ parsers, parser.Relocates agrees source other distance start)
    (hstart : start ≤ index) {errors errors' : List ParseError}
    (herrors : List.Forall₂ agrees errors errors')
    : Outcome.MovesTo agrees (Token.moved distance)
        (choiceAfter source index errors parsers).outcome
        (choiceAfter other (distance + index) errors' parsers).outcome := by
  induction parsers generalizing errors errors' with
  | nil => exact .failed (hagrees.merged index (List.rel_reverse herrors))
  | cons parser rest ih =>
      obtain ⟨hparser, hrest⟩ := List.forall_mem_cons.mp h
      exact (hparser index hstart).fold (fun token _ => .matched token)
        fun _ _ related => ih hrest (.cons related herrors)

/-- A choice moves along if its parsers do, since it starts without errors. -/
theorem relocates_choice (hagrees : ParseError.Agreement distance agrees)
    (h : ∀ parser ∈ parsers, parser.Relocates agrees source other distance start)
    : (choice parsers).Relocates agrees source other distance start :=
  fun _ hstart => movesTo_choiceAfter hagrees h hstart .nil

-----------------------------------------------------------------------------------------
-- Runs and sequences
-----------------------------------------------------------------------------------------

/-- The run so many bytes further on. -/
def Run.moved (distance : Nat) (run : Run α) : Run α :=
  { items := run.items.map (Token.moved distance), stop := distance + run.stop }

/-- A run keeps a token further on as it does here. -/
theorem Run.moved_keep (token : Token α) (run : Run α)
    : (run.moved distance).keep (token.moved distance) = (run.keep token).moved distance := by
  unfold Run.keep
  rw [Token.moved_isIgnored]
  split <;> rfl

/-- Nothing changes in the size of a run if its start moves along, by cases on whether it is
empty.
-/
theorem Run.close_movesTo {name : String} {onEmpty : Nat → ParseError} (run : Run α)
    (hempty : ∀ stop, agrees (onEmpty stop) (onEmpty (distance + stop)))
    : Outcome.MovesTo agrees (Token.moved distance) (run.close name onEmpty index).outcome
        ((run.moved distance).close name onEmpty (distance + index)).outcome := by
  unfold Run.close
  simp only [Run.moved, List.isEmpty_map, Nat.add_sub_add_left]
  split
  case isTrue => exact .failed (hempty run.stop)
  case isFalse =>
    rw [← Token.movedTokens_eq_map]
    exact .matched _

/-- Where a lookahead moves along, the reply is that of the same branch, by cases on whether
there is one.
-/
theorem movesTo_ifAhead {change : β → β} {present present' absent absent' : Reply β}
    (hahead : ∀ parser ∈ ahead, parser.Relocates agrees source other distance start)
    (hstart : start ≤ index)
    (hpresent : Outcome.MovesTo agrees change present.outcome present'.outcome)
    (habsent : Outcome.MovesTo agrees change absent.outcome absent'.outcome)
    : Outcome.MovesTo agrees change (ifAhead ahead source index present absent).outcome
        (ifAhead ahead other (distance + index) present' absent').outcome := by
  cases ahead with
  | none => exact habsent
  | some parser =>
      exact (hahead parser rfl index hstart).fold (fun _ _ => hpresent) fun _ _ _ => habsent

/-- A run moves along from token to token, which is onward, by induction on the parsers. -/
theorem movesTo_runSequence (hagrees : ParseError.Agreement distance agrees)
    (h : source.Aligned other distance start)
    (hparsers : ∀ parser ∈ parsers, parser.Relocates agrees source other distance start)
    (hahead : ∀ parser ∈ ahead, parser.Relocates agrees source other distance start)
    (hforward : ∀ parser ∈ parsers, parser.Forward source) {cursor : Nat}
    (hstart : start ≤ cursor)
    : Outcome.MovesTo agrees (Run.moved distance)
        (runSequence ahead source parsers cursor).outcome
        (runSequence ahead other parsers (distance + cursor)).outcome := by
  induction parsers generalizing cursor with
  | nil => exact .matched (Run.empty cursor)
  | cons parser rest ih =>
      obtain ⟨hparser, hrest⟩ := List.forall_mem_cons.mp hparsers
      obtain ⟨honward, hforward⟩ := List.forall_mem_cons.mp hforward
      refine (hparser cursor hstart).fold (fun token hreads => ?_) fun error moved related => ?_
      · have hstop : start ≤ token.stop := Nat.le_trans hstart (honward hreads)
        rw [Token.moved_stop]
        exact (ih hrest hforward hstop).map (Run.moved_keep token)
      · simp only [h.size_le_iff hstart]
        split
        case isTrue => exact .failed (hagrees.moves (.leaf rfl rfl rfl rfl))
        case isFalse =>
          exact movesTo_ifAhead hahead hstart (.matched (Run.empty cursor)) (.failed related)

/-- A sequence moves along if its parsers do and do not step back, since its run does. -/
theorem relocates_sequence (hagrees : ParseError.Agreement distance agrees)
    (h : source.Aligned other distance start)
    (hparsers : ∀ parser ∈ parsers, parser.Relocates agrees source other distance start)
    (hahead : ∀ parser ∈ ahead, parser.Relocates agrees source other distance start)
    (hforward : ∀ parser ∈ parsers, parser.Forward source)
    : (sequence parsers ahead).Relocates agrees source other distance start :=
  fun _ hstart =>
    (movesTo_runSequence hagrees h hparsers hahead hforward hstart).bind fun run _ =>
      run.close_movesTo fun _ => hagrees.moves (.leaf rfl rfl rfl rfl)

-----------------------------------------------------------------------------------------
-- Lists
-----------------------------------------------------------------------------------------

/-- A delimiter that moves along leads on to an offset as far on, by cases on whether there is
one.
-/
theorem movesTo_runDelimiter
    (hdelimiter : ∀ parser ∈ delimiter, parser.Relocates agrees source other distance start)
    {cursor : Nat} (hstart : start ≤ cursor)
    : Outcome.MovesTo agrees (Option.map (distance + ·))
        (runDelimiter delimiter source cursor).outcome
        (runDelimiter delimiter other (distance + cursor)).outcome := by
  cases delimiter with
  | none => exact .matched (some cursor)
  | some parser =>
      refine (hdelimiter parser rfl cursor hstart).fold (fun token _ => ?_) fun _ _ _ => ?_
      · rw [Token.moved_stop]
        exact .matched (some token.stop)
      · exact .matched none

section Lists

variable {item : Parser α}

/-- The rounds of a list move along, which lead onward, by induction on the rounds. -/
theorem movesTo_runList (h : source.Aligned other distance start)
    (hitem : item.Relocates agrees source other distance start)
    (hdelimiter : ∀ parser ∈ delimiter, parser.Relocates agrees source other distance start)
    (hahead : ∀ parser ∈ ahead, parser.Relocates agrees source other distance start)
    (honward : item.Forward source) (hpasses : ∀ parser ∈ delimiter, parser.Forward source)
    (rounds : Nat) {cursor : Nat} (hstart : start ≤ cursor)
    : Outcome.MovesTo agrees (Run.moved distance)
        (runList item delimiter ahead source rounds cursor).outcome
        (runList item delimiter ahead other rounds (distance + cursor)).outcome := by
  induction rounds generalizing cursor with
  | zero =>
      simp only [runList, h.size_le_iff hstart]
      split
      case isTrue => exact .matched (Run.empty cursor)
      case isFalse => exact .unresolved
  | succ rounds ih =>
      simp only [runList, h.size_le_iff hstart]
      split
      case isTrue => exact .matched (Run.empty cursor)
      case isFalse =>
        refine (hitem cursor hstart).bind fun token hreads => ?_
        have hstop : start ≤ token.stop := Nat.le_trans hstart (honward hreads)
        rw [Token.moved_stop]
        refine (movesTo_ifAhead hahead hstop (.matched (Run.empty token.stop)) ?_).map
          (Run.moved_keep token)
        refine (movesTo_runDelimiter hdelimiter hstop).bind fun next hnext => ?_
        cases next with
        | none => exact .matched (Run.empty token.stop)
        | some next =>
            have hnextStart : start ≤ next :=
              Nat.le_trans hstop ((runDelimiter_some_iff.mp hnext).le_next hpasses)
            simp only [Option.map_some, Nat.add_left_cancel_iff]
            split
            case isTrue => exact .matched (Run.empty next)
            case isFalse => exact ih hnextStart

/-- A list moves along if its parsers do and do not step back, since its run does, which has the
same number of rounds.
-/
theorem relocates_list (hagrees : ParseError.Agreement distance agrees)
    (h : source.Aligned other distance start)
    (hitem : item.Relocates agrees source other distance start)
    (hdelimiter : ∀ parser ∈ delimiter, parser.Relocates agrees source other distance start)
    (hahead : ∀ parser ∈ ahead, parser.Relocates agrees source other distance start)
    (honward : item.Forward source) (hpasses : ∀ parser ∈ delimiter, parser.Forward source)
    : (list item delimiter ahead).Relocates agrees source other distance start := by
  intro index hstart
  unfold list
  rw [h.left hstart]
  exact (movesTo_runList h hitem hdelimiter hahead honward hpasses _ hstart).bind fun run _ =>
    run.close_movesTo fun _ => hagrees.moves (.leaf rfl rfl rfl rfl)

end Lists

end Parser

-----------------------------------------------------------------------------------------
-- Grammars and rules
-----------------------------------------------------------------------------------------

section Grammars

variable {ρ κ : Type} {perform : κ → Token α → Except ParseError (Token α)}
  {resolve : ρ → Parser α} {agrees : ParseError → ParseError → Prop} {source other : Source}
  {start : Nat}

/-- All patterns in the grammar move along, and its rewordings do the same with related errors. -/
structure Grammar.Relocatable (α : Type) (agrees : ParseError → ParseError → Prop)
    (source other : Source) (distance start : Nat) (grammar : Grammar ρ κ)
    : Prop where
  patterns
    : ∀ expected,
        .pattern expected ∈ grammar.allParts
        → (expected.parser : Parser α).Relocates agrees source other distance start
  rewordings
    : ∀ rewording body,
        .reword rewording body ∈ grammar.allParts → Parser.RelatesErrors agrees rewording

/-- What moves along in a grammar does so in its parts. -/
theorem Grammar.Relocatable.part {grammar part : Grammar ρ κ}
    (h : grammar.Relocatable α agrees source other distance start)
    (hparts : part.allParts ⊆ grammar.allParts)
    : part.Relocatable α agrees source other distance start where
  patterns expected hpart := h.patterns expected (hparts hpart)
  rewordings rewording body hpart := h.rewordings rewording body (hparts hpart)

/-- A grammar moves along if its patterns, its rules and its actions do, by induction on it. -/
theorem Grammar.relocates (hagrees : ParseError.Agreement distance agrees)
    (h : source.Aligned other distance start)
    (hperform : ∀ action, Parser.NeverShortens (perform action))
    (hmoves : ∀ action, Parser.MovesAlong distance (perform action))
    (hforward : ∀ name, (resolve name).Forward source)
    (hresolve : ∀ name, (resolve name).Relocates agrees source other distance start)
    {grammar : Grammar ρ κ} (hparts : grammar.Relocatable α agrees source other distance start)
    : (grammar.parser perform resolve).Relocates agrees source other distance start := by
  have honward (body : Grammar ρ κ) : (body.parser perform resolve).Forward source :=
    body.forward hperform hforward
  induction grammar with
  | literal expected => exact Parser.relocates_literal hagrees h expected
  | pattern expected => exact hparts.patterns expected (List.mem_singleton_self _)
  | fail message => exact Parser.relocates_fail hagrees message
  | emit size kind => exact Parser.relocates_emit size kind
  | ignored body ih => exact (ih (hparts.part (List.subset_cons_self ..))).ignored
  | optional body ih => exact (ih (hparts.part (List.subset_cons_self ..))).optional
  | choice bodies ih =>
      refine Parser.relocates_choice hagrees (forall_mem_parsers.mpr fun body hmem => ?_)
      exact ih body hmem (hparts.part (allParts_subset_choice hmem))
  | sequence bodies ahead ih ihAhead =>
      refine Parser.relocates_sequence hagrees h (forall_mem_parsers.mpr fun body hmem => ?_)
        (forall_mem_parser?.mpr fun body hmem => ?_)
        (forall_mem_parsers.mpr fun body _ => honward body)
      · exact ih body hmem (hparts.part (allParts_subset_sequence hmem))
      · exact ihAhead body hmem (hparts.part (allParts_subset_sequence_ahead hmem))
  | list item delimiter ahead ih ihDelimiter ihAhead =>
      refine Parser.relocates_list hagrees h (ih (hparts.part allParts_subset_list_item))
        (forall_mem_parser?.mpr fun body hmem => ?_)
        (forall_mem_parser?.mpr fun body hmem => ?_) (honward item)
        (forall_mem_parser?.mpr fun body _ => honward body)
      · exact ihDelimiter body hmem (hparts.part (allParts_subset_list_delimiter hmem))
      · exact ihAhead body hmem (hparts.part (allParts_subset_list_ahead hmem))
  | act action body ih =>
      exact (ih (hparts.part (List.subset_cons_self ..))).refine hagrees (hmoves action)
  | reword rewording body ih =>
      exact (ih (hparts.part (List.subset_cons_self ..))).reword
        (hparts.rewordings rewording body (List.mem_cons_self ..))
  | rule name => exact hresolve name

end Grammars

namespace Language

variable {ρ κ : Type} {language : Language ρ κ α} {agrees : ParseError → ParseError → Prop}
  {source other : Source} {start : Nat}

/-- Rules move along if the patterns and the actions of the language do, by induction on the
depth.
-/
theorem rule_relocates (hagrees : ParseError.Agreement distance agrees)
    (h : source.Aligned other distance start)
    (hperform : ∀ action, Parser.NeverShortens (language.perform action))
    (hmoves : ∀ action, Parser.MovesAlong distance (language.perform action))
    (hparts
      : ∀ {name body},
          language.definition name = some body
          → body.Relocatable α agrees source other distance start)
    (depth : Nat) (name : ρ)
    : (language.rule depth name).Relocates agrees source other distance start := by
  refine rule_induction (fun _ parser => parser.Relocates agrees source other distance start) ?_
    ?_ depth name
  · exact fun _ => Parser.relocates_unresolved
  · intro depth name body hbody ih
    exact Grammar.relocates hagrees h hperform hmoves (rule_forward hperform depth) ih
      (hparts hbody)

end Language

end TokenGrammar
