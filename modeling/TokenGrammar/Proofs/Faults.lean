import TokenGrammar.Proofs.Checked
import TokenGrammar.Proofs.Termination
import TokenGrammar.Regex.Pattern

/-! No check but that for overflow ever fails, also where tokens that nobody looks at lead past the
end of a source or inside of a character. There, literals and patterns fail, and as nothing steps
back, no run ends before it starts.
-/

namespace TokenGrammar

variable {α β γ : Type}

-----------------------------------------------------------------------------------------
-- Checks that do not fail
-----------------------------------------------------------------------------------------

/-- With checks, the reply is the same, or a token ends beyond the range of 64 bits. -/
inductive Checked.Agrees : Checked β → Reply β → Prop where
  | reply (reply : Reply β) : Agrees (.reply reply) reply
  | overflow {index size : Nat} {reply : Reply β} (beyond : UInt64.size ≤ index + size)
    : Agrees (.fault (.overflow index size)) reply

namespace Checked.Agrees

variable {checked : Checked β} {first : Reply β}

theorem after (trace : Trace) (h : checked.Agrees first)
    : (checked.after trace).Agrees (first.after trace) := by
  cases h with
  | reply => exact .reply _
  | overflow beyond => exact .overflow beyond

/-- What goes on after a reply agrees if it does after each match and each failure, by cases on
the reply.
-/
theorem fold {onMatch : β → Checked γ} {onMatch' : β → Reply γ}
    {onFailure : ParseError → Checked γ} {onFailure' : ParseError → Reply γ}
    (h : checked.Agrees first)
    (hmatch
      : ∀ result, first.outcome = .matched result → (onMatch result).Agrees (onMatch' result))
    (hfailure : ∀ error, (onFailure error).Agrees (onFailure' error))
    : (checked.fold onMatch onFailure).Agrees (first.fold onMatch' onFailure') := by
  cases h with
  | overflow beyond => exact .overflow beyond
  | reply =>
      rcases first with ⟨trace, outcome⟩
      cases outcome with
      | matched result => exact (hmatch result rfl).after trace
      | failed error => exact (hfailure error).after trace
      | unresolved => exact .reply _

/-- What goes on after a match agrees if it does for each result, since failures stay as they
are.
-/
theorem bind {next : β → Checked γ} {next' : β → Reply γ} (h : checked.Agrees first)
    (hnext : ∀ result, first.outcome = .matched result → (next result).Agrees (next' result))
    : (checked.bind next).Agrees (first.bind next') :=
  h.fold hnext fun _ => .reply _

theorem map (change : β → γ) (h : checked.Agrees first)
    : (checked.map change).Agrees (first.map change) :=
  h.bind fun _ _ => .reply _

/-- What goes on after a failure agrees if it does for each error, since results stay as they
are.
-/
theorem recover {handle : ParseError → Checked β} {handle' : ParseError → Reply β}
    (h : checked.Agrees first) (hhandle : ∀ error, (handle error).Agrees (handle' error))
    : (checked.recover handle).Agrees (first.recover handle') :=
  h.fold (fun _ _ => .reply _) hhandle

/-- The end of a token that is checked is the end that is used, or beyond the range of 64 bits. -/
theorem checkedStop {token : Token α} {next : Nat → Checked β}
    (h : (next token.stop).Agrees first)
    : (token.checkedStop next).Agrees first := by
  unfold Token.checkedStop
  split
  case isTrue => exact h
  case isFalse hbeyond => exact .overflow (Nat.le_of_not_lt hbeyond)

/-- What agrees with a reply is that reply, or the fault of a token that ends beyond the range.
-/
theorem eq_or_overflow (h : checked.Agrees first)
    : checked = .reply first
      ∨ ∃ index size, UInt64.size ≤ index + size ∧ checked = .fault (.overflow index size) := by
  cases h with
  | reply => exact Or.inl rfl
  | overflow beyond => exact Or.inr ⟨_, _, beyond, rfl⟩

end Checked.Agrees

/-- From a boundary on, there is a slice up to the end of the source, whose text is the rest. -/
theorem Source.checkedRest_eq {source : Source} {index : Nat} {rest : List Char}
    (h : source.rest? index = some rest) (next : List Char → Checked β)
    : source.checkedRest index next = next rest := by
  have hslice : source.slice? index (index + byteLength rest) = some rest :=
    slice?_of_rest? (by rwa [List.append_nil])
  rw [add_byteLength_of_rest? h] at hslice
  simp only [checkedRest, hslice]

namespace CheckedParser

/-- With checks, the parser replies the same, unless a token ends beyond the range of 64 bits. -/
def Agrees (source : Source) (checked : CheckedParser α) (parser : Parser α) : Prop :=
  ∀ index, (checked source index).Agrees (parser source index)

variable {source : Source} {checked item : CheckedParser α} {parser item' : Parser α}
  {checkedAll : List (CheckedParser α)} {parsers : List (Parser α)}
  {delimiter ahead : Option (CheckedParser α)} {delimiter' ahead' : Option (Parser α)}
  {index cursor : Nat}

-----------------------------------------------------------------------------------------
-- Leaves
-----------------------------------------------------------------------------------------

/-- With checks, a literal replies the same, because it slices the source only at a boundary. -/
theorem agrees_literal (expected : Literal)
    : Agrees source (expected.checked : CheckedParser α) expected.parser := by
  intro index
  unfold Literal.checked Literal.parser
  cases hplace : source.at? index with
  | none =>
      rw [if_neg (by simp [Source.isBoundary, hplace])]
      exact .reply _
  | some place =>
      rw [if_pos (by simp [Source.isBoundary, hplace]),
        Source.checkedRest_eq (source.rest?_of_at? hplace)]
      dsimp only
      split <;> exact .reply _

/-- With checks, a pattern replies the same, because it slices the source only at a boundary. -/
theorem agrees_pattern (expected : Pattern)
    : Agrees source (expected.checked : CheckedParser α) expected.parser := by
  intro index
  unfold Pattern.checked
  cases hplace : source.at? index with
  | none =>
      rw [if_neg (by simp [Source.isBoundary, hplace])]
      simp only [Pattern.parser, hplace]
      exact .reply _
  | some place =>
      rw [if_pos (by simp [Source.isBoundary, hplace]),
        Source.checkedRest_eq (source.rest?_of_at? hplace)]
      exact .reply _

-----------------------------------------------------------------------------------------
-- Combinators
-----------------------------------------------------------------------------------------

theorem Agrees.ignored (h : Agrees source checked parser)
    : Agrees source (ignored checked) (Parser.ignored parser) :=
  fun index => (h index).map Token.ignore

theorem Agrees.optional (h : Agrees source checked parser)
    : Agrees source (optional checked) (Parser.optional parser) :=
  fun index => (h index).recover fun _ => .reply _

theorem Agrees.refine (change : Token α → Except ParseError (Token α))
    (h : Agrees source checked parser)
    : Agrees source (refine change checked) (Parser.refine change parser) := by
  refine fun index => (h index).bind fun token _ => ?_
  cases change token <;> exact .reply _

theorem Agrees.reword (change : ParseError → ParseError) (h : Agrees source checked parser)
    : Agrees source (reword change checked) (Parser.reword change parser) :=
  fun index => (h index).recover fun _ => .reply _

/-- With checks, alternatives reply the same, by induction on them. -/
theorem choiceAfter_agrees (h : List.Forall₂ (Agrees source) checkedAll parsers)
    (errors : List ParseError) (index : Nat)
    : (choiceAfter source index errors checkedAll).Agrees
        (Parser.choiceAfter source index errors parsers) := by
  induction h generalizing errors with
  | nil => exact .reply _
  | cons hfirst _ ih =>
      exact (hfirst index).fold (fun _ _ => .reply _) fun error => ih (error :: errors)

theorem agrees_choice (h : List.Forall₂ (Agrees source) checkedAll parsers)
    : Agrees source (choice checkedAll) (Parser.choice parsers) :=
  choiceAfter_agrees h []

/-- A run that ends no earlier than it starts has a length, so the check of it does not fail. -/
theorem close_agrees {name : String} {onEmpty : Nat → ParseError} {run : Parser.Run α}
    (hle : index ≤ run.stop)
    : (close name onEmpty index run).Agrees (run.close name onEmpty index) := by
  unfold close Parser.Run.close
  rw [if_pos hle]
  split <;> exact .reply _

/-- With checks, a lookahead decides the same, by cases on whether there is one. -/
theorem ifAhead_agrees (hahead : Option.Rel (Agrees source) ahead ahead')
    {present absent : Checked β} {present' absent' : Reply β}
    (hpresent : present.Agrees present') (habsent : absent.Agrees absent')
    : (ifAhead ahead source index present absent).Agrees
        (Parser.ifAhead ahead' source index present' absent') := by
  cases hahead with
  | none => exact habsent
  | some hparser => exact (hparser index).fold (fun _ _ => hpresent) fun _ => habsent

/-- With checks, a run of parsers is the same, by induction on them: the ends between them are
checked.
-/
theorem runSequence_agrees (hahead : Option.Rel (Agrees source) ahead ahead')
    (h : List.Forall₂ (Agrees source) checkedAll parsers) (cursor : Nat)
    : (runSequence ahead source checkedAll cursor).Agrees
        (Parser.runSequence ahead' source parsers cursor) := by
  induction h generalizing cursor with
  | nil => exact .reply _
  | cons hfirst _ ih =>
      refine (hfirst cursor).fold (fun token _ => ?_) fun error => ?_
      · exact .checkedStop ((ih token.stop).map _)
      · split
        case isTrue => exact .reply _
        case isFalse => exact ifAhead_agrees hahead (.reply _) (.reply _)

/-- With checks, a sequence replies the same if its parsers do not step back, for then its run
ends no earlier than it starts.
-/
theorem agrees_sequence (hahead : Option.Rel (Agrees source) ahead ahead')
    (h : List.Forall₂ (Agrees source) checkedAll parsers)
    (hforward : ∀ parser ∈ parsers, parser.Forward source)
    : Agrees source (sequence checkedAll ahead) (Parser.sequence parsers ahead') :=
  fun index =>
    (runSequence_agrees hahead h index).bind fun _ hrun =>
      close_agrees (Parser.le_stop_of_runSequence hforward hrun)

/-- With checks, a delimiter leads on to the same offset, by cases on whether there is one. -/
theorem runDelimiter_agrees (h : Option.Rel (Agrees source) delimiter delimiter')
    (cursor : Nat)
    : (runDelimiter delimiter source cursor).Agrees
        (Parser.runDelimiter delimiter' source cursor) := by
  cases h with
  | none => exact .reply _
  | some hparser =>
      exact (hparser cursor).fold (fun _ _ => .checkedStop (.reply _)) fun _ => .reply _

/-- With checks, the rounds of a list are the same, by induction on their number. -/
theorem runList_agrees (hitem : Agrees source item item')
    (hdelimiter : Option.Rel (Agrees source) delimiter delimiter')
    (hahead : Option.Rel (Agrees source) ahead ahead') (rounds cursor : Nat)
    : (runList item delimiter ahead source rounds cursor).Agrees
        (Parser.runList item' delimiter' ahead' source rounds cursor) := by
  induction rounds generalizing cursor with
  | zero =>
      unfold runList Parser.runList
      split <;> exact .reply _
  | succ rounds ih =>
      unfold runList Parser.runList
      split
      case isTrue => exact .reply _
      case isFalse =>
        refine (hitem cursor).bind fun token _ => .checkedStop (.map _ ?_)
        refine ifAhead_agrees hahead (.reply _) ?_
        refine (runDelimiter_agrees hdelimiter token.stop).bind fun next _ => ?_
        cases next with
        | none => exact .reply _
        | some next =>
            dsimp only
            split
            case isTrue => exact .reply _
            case isFalse => exact ih next

/-- With checks, a list replies the same if its item and its delimiter do not step back, for
then its run ends no earlier than it starts.
-/
theorem agrees_list (hitem : Agrees source item item')
    (hdelimiter : Option.Rel (Agrees source) delimiter delimiter')
    (hahead : Option.Rel (Agrees source) ahead ahead') (hforward : item'.Forward source)
    (hpasses : ∀ parser ∈ delimiter', parser.Forward source)
    : Agrees source (list item delimiter ahead) (Parser.list item' delimiter' ahead') :=
  fun index =>
    (runList_agrees hitem hdelimiter hahead _ index).bind fun _ hrun =>
      close_agrees (Parser.le_stop_of_runList hforward hpasses hrun)

end CheckedParser

-----------------------------------------------------------------------------------------
-- Grammars and languages
-----------------------------------------------------------------------------------------

section Grammars

variable {ρ κ : Type} {perform : κ → Token α → Except ParseError (Token α)}
  {checkedResolve : ρ → CheckedParser α} {resolve : ρ → Parser α} {source : Source}

namespace Grammar

/-- With checks, several grammars reply the same if each of them does, by induction on the list.
-/
theorem checkedAll_agrees {bodies : List (Grammar ρ κ)}
    (h
      : ∀ body ∈ bodies,
          CheckedParser.Agrees source (body.checked perform checkedResolve)
            (body.parser perform resolve))
    : List.Forall₂ (CheckedParser.Agrees source) (checkedAll perform checkedResolve bodies)
        (parsers perform resolve bodies) := by
  induction bodies with
  | nil => exact .nil
  | cons body rest ih =>
      obtain ⟨hbody, hrest⟩ := List.forall_mem_cons.mp h
      exact .cons hbody (ih hrest)

/-- With checks, a grammar that may be absent replies the same if it is present. -/
theorem checked?_agrees {body? : Option (Grammar ρ κ)}
    (h
      : ∀ body ∈ body?,
          CheckedParser.Agrees source (body.checked perform checkedResolve)
            (body.parser perform resolve))
    : Option.Rel (CheckedParser.Agrees source) (checked? perform checkedResolve body?)
        (parser? perform resolve body?) := by
  cases body? with
  | none => exact .none
  | some body => exact .some (h body rfl)

/-- With checks, a grammar replies the same, if its rules do and nothing steps back, by
induction on the grammar.
-/
theorem checked_agrees (hperform : ∀ action, Parser.NeverShortens (perform action))
    (hforward : ∀ name, (resolve name).Forward source)
    (hresolve : ∀ name, CheckedParser.Agrees source (checkedResolve name) (resolve name))
    (grammar : Grammar ρ κ)
    : CheckedParser.Agrees source (grammar.checked perform checkedResolve)
        (grammar.parser perform resolve) := by
  have honward (body : Grammar ρ κ) : (body.parser perform resolve).Forward source :=
    body.forward hperform hforward
  induction grammar with
  | literal expected => exact CheckedParser.agrees_literal expected
  | pattern expected => exact CheckedParser.agrees_pattern expected
  | fail message | emit size kind => exact fun _ => .reply _
  | ignored body ih => exact ih.ignored
  | optional body ih => exact ih.optional
  | choice bodies ih =>
      exact CheckedParser.agrees_choice (checkedAll_agrees ih)
  | sequence bodies ahead ih ihAhead =>
      exact CheckedParser.agrees_sequence (checked?_agrees ihAhead) (checkedAll_agrees ih)
        (forall_mem_parsers.mpr fun body _ => honward body)
  | list item delimiter ahead ih ihDelimiter ihAhead =>
      exact CheckedParser.agrees_list ih (checked?_agrees ihDelimiter) (checked?_agrees ihAhead)
        (honward item) (forall_mem_parser?.mpr fun body _ => honward body)
  | act action body ih => exact ih.refine (perform action)
  | reword rewording body ih => exact ih.reword rewording
  | rule name => exact hresolve name

end Grammar

end Grammars

namespace Language

variable {ρ κ : Type} {language : Language ρ κ α}

/-- With checks, rules reply the same, by induction on the depth. -/
theorem checkedRule_agrees (hperform : ∀ action, Parser.NeverShortens (language.perform action))
    (source : Source) (depth : Nat) (name : ρ)
    : CheckedParser.Agrees source (language.checkedRule depth name)
        (language.rule depth name) := by
  induction depth generalizing name with
  | zero => exact fun _ => .reply _
  | succ depth ih =>
      unfold checkedRule rule
      cases language.definition name with
      | none => exact fun _ => .reply _
      | some body => exact body.checked_agrees hperform (rule_forward hperform depth) ih

/-- Whatever a grammar reads, and from any offset, each slice that it takes is in range and between
boundaries, and each run that it closes ends no earlier than it starts: with checks it replies
the same, unless a token ends beyond the range of 64 bits. Where there is no boundary, literals
and patterns fail with a mismatch.
-/
theorem checked_eq_or_overflow
    (hperform : ∀ action, Parser.NeverShortens (language.perform action))
    (grammar : Grammar ρ κ) (source : Source) (index : Nat)
    : (language.checked grammar source index = .reply (language.parser grammar source index)
        ∨ ∃ start size,
            UInt64.size ≤ start + size
            ∧ language.checked grammar source index = .fault (.overflow start size))
      ∧ (¬ source.isBoundary index
        → (∀ expected : Literal,
            (expected.parser : Parser α).Fails source index
              (.mismatch (.invalidOffset source.size) index))
          ∧ ∀ expected : Pattern,
              (expected.parser : Parser α).Fails source index
                (.mismatch (.pattern expected.written) index)) := by
  have hagrees
      : (language.checked grammar source index).Agrees (language.parser grammar source index) :=
    grammar.checked_agrees hperform (rule_forward hperform _)
      (checkedRule_agrees hperform source _) index
  refine ⟨hagrees.eq_or_overflow, fun hboundary => ?_⟩
  have hrest : source.rest? index = none := by
    rw [Source.isBoundary_iff, not_exists] at hboundary
    exact Option.eq_none_iff_forall_ne_some.mpr hboundary
  exact ⟨fun expected => expected.fails_of_rest?_eq_none hrest,
    fun expected => expected.fails_of_rest?_eq_none hrest⟩

/-- A rule for letters and commas that consumes three bytes blindly where there are none. -/
def blindRules : List (String × Grammar String Relabelling) :=
  [("blind",
    .list
      (.choice
        [.literal (.exact "é"), .pattern (Regex.pattern (.literal ',') ","),
          .emit 3 (.named "blind")])
      none none)]

/-- From inside of the first letter in `(é,é`, the rule gets inside of the second one, and from
there past the end.
-/
theorem blind_checked_eq_or_overflow
    : let language := ofRules blindRules
      let grammar : Grammar String Relabelling := .rule "blind"
      let source := Source.ofString "(é,é"
      (∀ relabelling, Parser.NeverShortens (language.perform relabelling))
      ∧ ¬ source.isBoundary 2
      ∧ (language.parser grammar source 2).outcome.result?.map Token.stop = some 8
      ∧ (language.checked grammar source 2 = .reply (language.parser grammar source 2)
        ∨ ∃ start size,
            UInt64.size ≤ start + size
            ∧ language.checked grammar source 2 = .fault (.overflow start size))
      ∧ (∀ expected : Literal,
          (expected.parser : Parser Int64).Fails source 2
            (.mismatch (.invalidOffset source.size) 2))
      ∧ ∀ expected : Pattern,
          (expected.parser : Parser Int64).Fails source 2
            (.mismatch (.pattern expected.written) 2) := by
  intro language grammar source
  have hperform (relabelling : Relabelling)
      : Parser.NeverShortens (language.perform relabelling) :=
    relabelling.keepsSpan.neverShortens
  have hinside : ¬ source.isBoundary 2 := by decide +kernel
  obtain ⟨hchecked, hfails⟩ := checked_eq_or_overflow hperform grammar source 2
  exact ⟨hperform, hinside, by decide +kernel, hchecked, hfails hinside⟩

end Language

end TokenGrammar
