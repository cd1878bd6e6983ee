import TokenGrammar.Proofs.Languages
import TokenGrammar.Proofs.Nesting

/-! Offsets that are no places of a source. There, nothing can be consumed: what succeeds without
looking at the source leads back to the same offset, and all that fails does so there.
-/

namespace TokenGrammar

variable {α : Type}

-----------------------------------------------------------------------------------------
-- Offsets
-----------------------------------------------------------------------------------------

/-- The offset lies in a character: behind its first byte and in front of its end. -/
def Source.InCharacter (source : Source) (offset : Nat) : Prop :=
  ∃ front char rest,
    source.chars = front ++ char :: rest
    ∧ byteLength front < offset
    ∧ offset < byteLength (front ++ [char])

/-- No rest of the source starts in a character: such a split would have to cut that character
in two.
-/
theorem Source.rest?_eq_none_of_inCharacter {source : Source} {offset : Nat}
    (h : source.InCharacter offset)
    : source.rest? offset = none := by
  obtain ⟨front, char, rest, hsplit, hlow, hhigh⟩ := h
  refine Option.eq_none_iff_forall_ne_some.mpr fun after hafter => ?_
  obtain ⟨before, hbefore, rfl⟩ := rest?_eq_some_iff.mp hafter
  obtain ⟨text, rfl, htext⟩ :=
    exists_between_of_byteLength_le (hsplit.symm.trans hbefore) (Nat.le_of_lt hlow)
  -- The text between the two fronts has the whole character in it, unless it is empty.
  cases text with
  | nil => simp at hlow
  | cons first text =>
      obtain rfl := (List.cons.inj htext).1
      simp only [byteLength_append, byteLength] at hhigh
      omega

-----------------------------------------------------------------------------------------
-- Tokens and errors at one offset
-----------------------------------------------------------------------------------------

/-- The token and all tokens in it, at any depth, are empty and at the offset. -/
inductive Token.EmptyAt (index : Nat) : Token α → Prop where
  | intro {token : Token α} (index_eq : token.index = index) (size_eq : token.size = 0)
    (each : ∀ part ∈ token.parts, EmptyAt index part)
    : EmptyAt index token

/-- The error and all errors among its causes, at any depth, are at the offset. -/
def ParseError.AllAt (index : Nat) (error : ParseError) : Prop :=
  ∀ part : ParseError, part.PartOf error → part.index = index

section Trees

variable {index : Nat} {token inner : Token α} {error : ParseError}

theorem Token.EmptyAt.index_eq (h : token.EmptyAt index) : token.index = index := by
  cases h with
  | intro index_eq _ _ => exact index_eq

theorem Token.EmptyAt.size_eq (h : token.EmptyAt index) : token.size = 0 := by
  cases h with
  | intro _ size_eq _ => exact size_eq

theorem Token.EmptyAt.stop_eq (h : token.EmptyAt index) : token.stop = index := by
  rw [stop, h.index_eq, h.size_eq, Nat.add_zero]

theorem Token.EmptyAt.of_mem_parts (h : token.EmptyAt index) (hmem : inner ∈ token.parts)
    : inner.EmptyAt index := by
  cases h with
  | intro _ _ each => exact each inner hmem

/-- An ignored token of no bytes is empty, since it holds no others. -/
theorem Token.emptyAt_ignored (index : Nat) : (ignored index 0 : Token α).EmptyAt index :=
  .intro rfl rfl nofun

/-- An empty token stays so when it is ignored. -/
theorem Token.EmptyAt.ignore (h : token.EmptyAt index) : token.ignore.EmptyAt index :=
  .intro h.index_eq h.size_eq nofun

/-- An empty token stays so with another label, and with a value that holds no other tokens. -/
theorem Token.EmptyAt.relabel (h : token.EmptyAt index) (kind : Kind) {value : Value α}
    (hparts : ∀ part ∈ (token.relabel kind value).parts, part.EmptyAt index)
    : (token.relabel kind value).EmptyAt index :=
  .intro h.index_eq h.size_eq hparts

theorem ParseError.AllAt.index_eq (h : error.AllAt index) : error.index = index :=
  h error .self

theorem ParseError.allAt_leaf (hindex : error.index = index) (hcauses : error.causes = [])
    : error.AllAt index := by
  intro part hpart
  rw [hpart.eq_of_causes_eq_nil hcauses, hindex]

theorem ParseError.allAt_alternatives {causes : List ParseError}
    (h : ∀ cause ∈ causes, cause.AllAt index)
    : (alternatives causes index).AllAt index := by
  intro part hpart
  rcases partOf_alternatives_iff.mp hpart with rfl | ⟨inner, known, deeper⟩
  · rfl
  · exact h inner known part deeper

end Trees

-----------------------------------------------------------------------------------------
-- Parsers
-----------------------------------------------------------------------------------------

/-- Started at the offset, the parser consumes nothing: its token is empty there with all that is
in it, and its error is there with all its causes.
-/
structure Parser.Stays (source : Source) (index : Nat) (parser : Parser α) : Prop where
  reads : ∀ {token}, parser.Reads source index token → token.EmptyAt index
  fails : ∀ {error}, parser.Fails source index error → error.AllAt index

namespace Parser

variable {source : Source} {index : Nat} {parser : Parser α} {parsers : List (Parser α)}

/-- A literal fails at the offset, where there is no rest to compare with. -/
theorem stays_literal (expected : Literal) (h : source.rest? index = none)
    : (expected.parser : Parser α).Stays source index := by
  constructor
  · intro token hreads
    obtain ⟨rest, hrest, -⟩ := Literal.reads_iff.mp hreads
    simp [h] at hrest
  · intro error hfails
    rcases Literal.fails_iff.mp hfails with ⟨-, rfl⟩ | ⟨rest, hrest, -⟩
    · exact ParseError.allAt_leaf rfl rfl
    · simp [h] at hrest

/-- A pattern fails at the offset, where there is no place to match from. -/
theorem stays_pattern (expected : Pattern) (h : source.rest? index = none)
    : (expected.parser : Parser α).Stays source index := by
  constructor
  · intro token hreads
    obtain ⟨place, _, hplace, -⟩ := Pattern.reads_iff.mp hreads
    simp [source.rest?_of_at? hplace] at h
  · intro error hfails
    obtain ⟨-, rfl⟩ := Pattern.fails_iff.mp hfails
    exact ParseError.allAt_leaf rfl rfl

/-- A parser that always fails does so at the offset. -/
theorem stays_fail (message : String) : (fail message : Parser α).Stays source index := by
  constructor
  · intro token hreads
    contradiction
  · intro error hfails
    obtain rfl := Outcome.failed.inj hfails
    exact ParseError.allAt_leaf rfl rfl

theorem stays_unresolved : Stays source index (fun _ _ => .unresolved : Parser α) := by
  constructor
  · intro token hreads
    contradiction
  · intro error hfails
    contradiction

theorem Stays.ignored (h : parser.Stays source index) : (ignored parser).Stays source index := by
  constructor
  · intro token hreads
    obtain ⟨inner, hinner, rfl⟩ := ignored_reads_iff.mp hreads
    exact (h.reads hinner).ignore
  · intro error hfails
    exact h.fails (ignored_fails_iff.mp hfails)

/-- An option reads an empty token at the offset if its parser fails there. -/
theorem Stays.optional (h : parser.Stays source index)
    : (optional parser).Stays source index := by
  constructor
  · intro token hreads
    rcases optional_reads_iff.mp hreads with hinner | ⟨-, rfl⟩
    · exact h.reads hinner
    · exact Token.emptyAt_ignored index
  · intro error hfails
    exact absurd hfails not_optional_fails

/-- The change keeps empty tokens empty where they are, and rejects them there. -/
structure KeepsEmpty (index : Nat) (change : Token α → Except ParseError (Token α)) : Prop where
  accepted
    : ∀ {token changed}, change token = .ok changed → token.EmptyAt index → changed.EmptyAt index
  rejected
    : ∀ {token error}, change token = .error error → token.EmptyAt index → error.AllAt index

/-- A change that keeps empty tokens empty consumes nothing more. -/
theorem Stays.refine {change : Token α → Except ParseError (Token α)}
    (h : parser.Stays source index) (hchange : KeepsEmpty index change)
    : (refine change parser).Stays source index := by
  constructor
  · intro token hreads
    obtain ⟨inner, hinner, hok⟩ := refine_reads_iff.mp hreads
    exact hchange.accepted hok (h.reads hinner)
  · intro error hfails
    rcases refine_fails_iff.mp hfails with ⟨inner, hinner, herror⟩ | hinner
    · exact hchange.rejected herror (h.reads hinner)
    · exact h.fails hinner

/-- New wording that keeps locations does not move any part of an error away from the offset. -/
theorem Stays.reword {change : ParseError → ParseError} (h : parser.Stays source index)
    (hchange : KeepsLocations change)
    : (reword change parser).Stays source index := by
  constructor
  · intro token hreads
    exact h.reads (reword_reads_iff.mp hreads)
  · intro error hfails
    obtain ⟨inner, hinner, rfl⟩ := reword_fails_iff.mp hfails
    intro part hpart
    obtain ⟨origin, horigin, hsame, -⟩ := hchange hpart
    exact hsame.trans (h.fails hinner origin horigin)

/-- A choice consumes nothing if its parsers do not: its token is one of theirs, and its error
is at the offset with theirs.
-/
theorem stays_choice (h : ∀ parser ∈ parsers, parser.Stays source index)
    : (choice parsers).Stays source index := by
  constructor
  · intro token hreads
    obtain ⟨parser, hmem, hparser⟩ := exists_mem_of_choice_reads hreads
    exact (h parser hmem).reads hparser
  · intro error hfails
    obtain ⟨causes, hcauses, rfl⟩ := choice_fails_iff.mp hfails
    refine ParseError.allAt_alternatives fun cause hmem => ?_
    obtain ⟨parser, hparser, hfails⟩ := exists_mem_of_mem_causes hcauses hmem
    exact (h parser hparser).fails hfails

theorem emptyAt_kept {tokens : List (Token α)} (h : ∀ token ∈ tokens, token.EmptyAt index)
    (kind : Kind)
    : Token.EmptyAt index ⟨index, index - index, kind, .tokens (kept tokens)⟩ :=
  .intro rfl (Nat.sub_self index) fun _ hmem => h _ (List.mem_of_mem_filter hmem)

/-- Parsers that consume nothing are all started at the same offset, by induction on the run. -/
theorem Consecutive.stays {cursor stop : Nat} {tokens : List (Token α)}
    (hrun : Consecutive source parsers cursor tokens stop)
    (h : ∀ parser ∈ parsers, parser.Stays source cursor)
    : stop = cursor ∧ ∀ token ∈ tokens, token.EmptyAt cursor := by
  induction hrun with
  | nil => exact ⟨rfl, nofun⟩
  | @cons parser rest cursor stop token tokens first _ ih =>
      obtain ⟨hfirst, hrest⟩ := List.forall_mem_cons.mp h
      have hempty := hfirst.reads first
      rw [hempty.stop_eq] at ih
      obtain ⟨hstop, htokens⟩ := ih hrest
      exact ⟨hstop, List.forall_mem_cons.mpr ⟨hempty, htokens⟩⟩

/-- A sequence consumes nothing if its parsers do not, for each of them is started where the
first one was.
-/
theorem stays_sequence (ahead : Option (Parser α))
    (h : ∀ parser ∈ parsers, parser.Stays source index)
    : (sequence parsers ahead).Stays source index := by
  constructor
  · intro token hreads
    obtain ⟨run, hrun, -, rfl⟩ := sequence_reads_iff.mp hreads
    obtain ⟨front, back, tokens, rfl, hfront, hitems, -⟩ := runSequence_matched_iff.mp hrun
    obtain ⟨hstop, htokens⟩ :=
      hfront.stays fun parser hmem => h parser (List.mem_append_left _ hmem)
    rw [hitems, hstop]
    exact emptyAt_kept htokens _
  · intro error hfails
    rcases sequence_fails_iff.mp hfails with ⟨run, hrun, -, rfl⟩ | hrun
    · obtain ⟨front, back, tokens, rfl, hfront, -⟩ := runSequence_matched_iff.mp hrun
      obtain ⟨hstop, -⟩ := hfront.stays fun parser hmem => h parser (List.mem_append_left _ hmem)
      exact ParseError.allAt_leaf hstop rfl
    · obtain ⟨front, parser, back, tokens, stop, cause, rfl, hfront, hcause, hor⟩ :=
        runSequence_failed_iff.mp hrun
      obtain ⟨rfl, -⟩ := hfront.stays fun parser hmem => h parser (List.mem_append_left _ hmem)
      rcases hor with ⟨-, rfl⟩ | ⟨-, -, rfl⟩
      · exact ParseError.allAt_leaf rfl rfl
      · exact (h parser (by simp)).fails hcause

section Lists

variable {item : Parser α} {delimiter ahead : Option (Parser α)} {cursor stop : Nat}

/-- A round of parsers that consume nothing ends where it starts, by cases on whether there is a
delimiter.
-/
theorem Round.stays {token : Token α} {next : Nat}
    (round : Round item delimiter ahead source cursor token next)
    (hitem : item.Stays source cursor)
    (hdelimiter : ∀ parser ∈ delimiter, parser.Stays source cursor)
    : next = cursor := by
  have hstop := (hitem.reads round.reads).stop_eq
  have hpasses := round.passes
  rw [hstop] at hpasses
  cases delimiter with
  | none => exact hpasses.symm
  | some parser =>
      obtain ⟨between, hbetween, rfl⟩ := hpasses
      exact ((hdelimiter parser rfl).reads hbetween).stop_eq

/-- A list ends in its first round, if not in front of it: a round that goes on makes progress. -/
theorem Rounds.stays {tokens : List (Token α)}
    (hrounds : Rounds item delimiter ahead source cursor tokens stop)
    (hitem : item.Stays source cursor)
    (hdelimiter : ∀ parser ∈ delimiter, parser.Stays source cursor)
    : stop = cursor ∧ ∀ token ∈ tokens, token.EmptyAt cursor := by
  cases hrounds with
  | exhausted => exact ⟨rfl, nofun⟩
  | found _ reads | undelimited _ reads =>
      have hempty := hitem.reads reads
      exact ⟨hempty.stop_eq, by simpa using hempty⟩
  | stalled round => exact ⟨rfl, by simpa using hitem.reads round.reads⟩
  | next round progress _ => exact absurd (round.stays hitem hdelimiter) progress

/-- Only the first item of a list can fail, since no round goes on behind it. -/
theorem ItemFails.stays {error : ParseError}
    (h : ItemFails item delimiter ahead source cursor error) (hitem : item.Stays source cursor)
    (hdelimiter : ∀ parser ∈ delimiter, parser.Stays source cursor)
    : error.AllAt cursor := by
  cases h with
  | here _ fails => exact hitem.fails fails
  | next round progress _ => exact absurd (round.stays hitem hdelimiter) progress

/-- A list consumes nothing if its item and its delimiter do not, for it ends in its first
round.
-/
theorem stays_list (ahead : Option (Parser α)) (hitem : item.Stays source index)
    (hdelimiter : ∀ parser ∈ delimiter, parser.Stays source index)
    : (list item delimiter ahead).Stays source index := by
  constructor
  · intro token hreads
    obtain ⟨tokens, stop, hrounds, -, rfl⟩ := exists_rounds_of_list_reads hreads
    obtain ⟨rfl, htokens⟩ := hrounds.stays hitem hdelimiter
    exact emptyAt_kept htokens _
  · intro error hfails
    rcases itemFails_or_of_list_fails hfails with hitemFails | ⟨tokens, stop, hrounds, -, rfl⟩
    · exact hitemFails.stays hitem hdelimiter
    · obtain ⟨rfl, -⟩ := hrounds.stays hitem hdelimiter
      exact ParseError.allAt_leaf rfl rfl

end Lists

end Parser

-----------------------------------------------------------------------------------------
-- Grammars and languages
-----------------------------------------------------------------------------------------

section Grammars

variable {ρ κ : Type} {source : Source} {index : Nat} {admitted : ρ → Prop}

/-- An attentive grammar consumes nothing where there is no rest of the source, if its actions
keep empty tokens empty and the rules that it enters consume nothing. By induction on how it is
attentive.
-/
theorem Grammar.Attentive.stays {perform : κ → Token α → Except ParseError (Token α)}
    {resolve : ρ → Parser α} {grammar : Grammar ρ κ} (h : grammar.Attentive admitted)
    (hindex : source.rest? index = none)
    (hperform : ∀ action, Parser.KeepsEmpty index (perform action))
    (hresolve : ∀ name, admitted name → (resolve name).Stays source index)
    : (grammar.parser perform resolve).Stays source index := by
  induction h with
  | literal expected => exact Parser.stays_literal expected hindex
  | pattern expected => exact Parser.stays_pattern expected hindex
  | fail message => exact Parser.stays_fail message
  | ignored _ ih => exact ih.ignored
  | optional _ ih => exact ih.optional
  | choice _ ih =>
      rw [parser, parsers_eq_map]
      exact Parser.stays_choice (by simpa using ih)
  | sequence ahead _ ih =>
      rw [parser, parsers_eq_map]
      exact Parser.stays_sequence _ (by simpa using ih)
  | list ahead _ _ ihItem ihDelimiter =>
      rw [parser, parser?_eq_map]
      exact Parser.stays_list _ ihItem (by simpa using ihDelimiter)
  | act action _ ih => exact ih.refine (hperform action)
  | reword keeps _ ih => exact ih.reword keeps
  | rule known => exact hresolve _ known

/-- Admitted rules consume nothing there either, however deep they may be nested, by induction on
the depth.
-/
theorem Language.rule_stays {language : Language ρ κ α} (hindex : source.rest? index = none)
    (hperform : ∀ action, Parser.KeepsEmpty index (language.perform action))
    (hrules : language.AttentiveOn admitted) (depth : Nat) (name : ρ) (hname : admitted name)
    : (language.rule depth name).Stays source index := by
  refine rule_induction (fun name parser => admitted name → parser.Stays source index) ?_ ?_ depth
    name hname
  · exact fun _ _ => Parser.stays_unresolved
  · intro depth name body hbody ih hname
    exact (hrules name body hname hbody).stays hindex hperform ih

end Grammars

theorem Projection.emptyAt_of_mem_parts {index : Nat} {token part : Token Int64} {kind : Kind}
    (h : token.EmptyAt index) (projection : Projection)
    (hpart : part ∈ (token.relabel kind (projection.apply token)).parts)
    : part.EmptyAt index := by
  rcases eq_or_mem_of_mem_parts hpart with rfl | hheld
  · exact h
  · exact h.of_mem_parts hheld

/-- Relabellings keep empty tokens empty, by cases on what they change. -/
theorem Relabelling.keepsEmpty (index : Nat) (relabelling : Relabelling)
    : Parser.KeepsEmpty index fun token => .ok (relabelling.apply token) := by
  constructor
  · intro token changed hok hempty
    obtain rfl := Except.ok.inj hok
    cases relabelling with
    | produce name projection =>
        exact hempty.relabel _ fun _ hpart => projection.emptyAt_of_mem_parts hempty hpart
    | label name => exact hempty.relabel _ fun _ hpart => hempty.of_mem_parts hpart
    | ignore => exact hempty.ignore
    | same => exact hempty
  · intro token error h
    contradiction

/-- Past the end of a source and in the middle of its characters, an attentive grammar with
relabellings consumes nothing: what it reads is empty and at the offset, with all tokens in it, and
its errors are at the offset, with all their causes.
-/
theorem Language.nothing_consumed_at_invalid_offset
    {rules : List (String × Grammar String Relabelling)}
    {grammar : Grammar String Relabelling} {admitted : String → Prop} {source : Source}
    {index : Nat} (hrules : (ofRules rules).AttentiveOn admitted)
    (hgrammar : grammar.Attentive admitted)
    (hindex : source.size < index ∨ source.InCharacter index)
    : (∀ token,
        ((ofRules rules).parser grammar source index).outcome = .matched token
        → token.EmptyAt index)
      ∧ ∀ error,
          ((ofRules rules).parser grammar source index).outcome = .failed error
          → error.AllAt index := by
  have hnone : source.rest? index = none := by
    rcases hindex with hsize | hcharacter
    · exact source.rest?_eq_none_of_size_lt hsize
    · exact source.rest?_eq_none_of_inCharacter hcharacter
  have hstays
      : ((ofRules rules).parserWithin ((ofRules rules).depth source.size) grammar).Stays source
          index :=
    hgrammar.stays hnone (Relabelling.keepsEmpty index)
      (rule_stays hnone (Relabelling.keepsEmpty index) hrules _)
  exact ⟨fun _ => hstays.reads, fun _ => hstays.fails⟩

/-- A rule for letters that may be missing, and for such rules in parentheses. -/
def letterRules : List (String × Grammar String Relabelling) :=
  [("letters",
    .choice
      [.sequence
          [.literal (.exact "("), .rule "letters", .literal (.exact ")")] none,
        .list (.act (.produce "letter" .wrap) (.optional (.literal (.exact "é")))) none none])]

/-- The rule for letters is attentive, since it consumes nothing blindly. -/
theorem letterRules_attentive
    : (Language.ofRules letterRules).AttentiveOn fun name => name = "letters" := by
  intro name body hname hbody
  subst hname
  obtain rfl := Option.some.inj hbody
  refine .choice (List.forall_mem_cons.mpr ⟨.sequence _ ?_, List.forall_mem_singleton.mpr ?_⟩)
  · simp [Grammar.Attentive.literal, Grammar.Attentive.rule]
  · exact .list _ (.act _ (.optional (.literal _))) nofun

/-- In the middle of `é`, a list finds a letter that is missing. -/
theorem letter_empty_in_character
    : let parser := (Language.ofRules letterRules).parser (.rule "letters")
      let source := Source.ofString "é"
      let token : Token Int64 :=
        ⟨1, 0, .named "list", .tokens [⟨1, 0, .named "letter", .token (.ignored 1 0)⟩]⟩
      (parser source 1).outcome = .matched token
      ∧ source.InCharacter 1
      ∧ token.EmptyAt 1 := by
  intro parser source token
  have hreads : (parser source 1).outcome = .matched token := rfl
  have hcharacter : source.InCharacter 1 := ⟨[], 'é', [], rfl, by decide, by decide⟩
  obtain ⟨hempty, -⟩ :=
    Language.nothing_consumed_at_invalid_offset letterRules_attentive (.rule rfl)
      (Or.inr hcharacter)
  exact ⟨hreads, hcharacter, hempty token hreads⟩

end TokenGrammar
