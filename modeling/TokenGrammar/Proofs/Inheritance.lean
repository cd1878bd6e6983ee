import TokenGrammar.Proofs.Entries

/-! Properties that tokens inherit from those that they hold. They are shown for the tokens of
literals and patterns, for tokens without a value and for those that hold others, and then hold of
every token that a grammar reads, unless an action of the grammar breaks them.
-/

namespace TokenGrammar

variable {α : Type} {property : Token α → Prop} {source : Source}

-----------------------------------------------------------------------------------------
-- Parsers
-----------------------------------------------------------------------------------------

namespace Parser

variable {parser : Parser α} {parsers : List (Parser α)}

/-- All tokens that the parser reads have the property. -/
def ReadsOnly (property : Token α → Prop) (source : Source) (parser : Parser α) : Prop :=
  ∀ index token, parser.Reads source index token → property token

/-- Tokens that have the property still have it after the change. -/
def Keeps (property : Token α → Prop) (change : Token α → Except ParseError (Token α)) : Prop :=
  ∀ {token changed}, change token = .ok changed → property token → property changed

/-- What literals and patterns read has the property, and so do tokens without a value. A token that
holds others, at least one, has it if all of them do.
-/
structure Inherited (property : Token α → Prop) (source : Source) : Prop where
  literal : ∀ expected : Literal, (expected.parser : Parser α).ReadsOnly property source
  pattern : ∀ expected : Pattern, (expected.parser : Parser α).ReadsOnly property source
  none : ∀ index size kind, property ⟨index, size, kind, .none⟩
  tokens
    : ∀ index size kind items,
        items ≠ []
        → (∀ item ∈ items, property item)
        → property ⟨index, size, kind, .tokens items⟩

theorem readsOnly_choice (h : ∀ parser ∈ parsers, parser.ReadsOnly property source)
    : (choice parsers).ReadsOnly property source := by
  intro index token hreads
  obtain ⟨parser, hmem, hparser⟩ := exists_mem_of_choice_reads hreads
  exact h parser hmem _ _ hparser

theorem ReadsOnly.refine {change : Token α → Except ParseError (Token α)}
    (h : parser.ReadsOnly property source) (hchange : Keeps property change)
    : (refine change parser).ReadsOnly property source := by
  intro index token hreads
  obtain ⟨inner, hinner, hok⟩ := refine_reads_iff.mp hreads
  exact hchange hok (h _ _ hinner)

namespace Inherited

variable (inherited : Inherited property source)

include inherited

theorem emit (size : Nat) (kind : Kind)
    : (emit size kind .none : Parser α).ReadsOnly property source := by
  intro index token hreads
  obtain rfl := Outcome.matched.inj hreads
  exact inherited.none _ _ _

/-- An ignored token has the property, for it has no value. -/
theorem ignored (parser : Parser α) : (ignored parser).ReadsOnly property source := by
  intro index token hreads
  obtain ⟨inner, -, rfl⟩ := ignored_reads_iff.mp hreads
  exact inherited.none _ _ _

theorem optional (h : parser.ReadsOnly property source)
    : (optional parser).ReadsOnly property source := by
  intro index token hreads
  rcases optional_reads_iff.mp hreads with hinner | ⟨-, rfl⟩
  · exact h _ _ hinner
  · exact inherited.none _ _ _

/-- A sequence has the property with the tokens that it keeps, each of which one of its parsers
read.
-/
theorem sequence (ahead : Option (Parser α))
    (h : ∀ parser ∈ parsers, parser.ReadsOnly property source)
    : (sequence parsers ahead).ReadsOnly property source := by
  intro index token hreads
  obtain ⟨run, hrun, hne, rfl⟩ := sequence_reads_iff.mp hreads
  obtain ⟨front, back, tokens, rfl, hfront, hitems, -⟩ := runSequence_matched_iff.mp hrun
  rw [hitems] at hne ⊢
  refine inherited.tokens _ _ _ _ hne fun token hmem => ?_
  obtain ⟨parser, hparser, start, hstart⟩ :=
    hfront.exists_reads_of_mem token (List.mem_of_mem_filter hmem)
  exact h parser (List.mem_append_left _ hparser) _ _ hstart

/-- A list has the property with the tokens that it keeps, each of which its item read. -/
theorem list {item : Parser α} (delimiter ahead : Option (Parser α))
    (h : item.ReadsOnly property source)
    : (list item delimiter ahead).ReadsOnly property source := by
  intro index token hreads
  obtain ⟨tokens, stop, hrounds, hne, rfl⟩ := exists_rounds_of_list_reads hreads
  refine inherited.tokens _ _ _ _ hne fun token hmem => ?_
  obtain ⟨start, hstart⟩ := hrounds.exists_reads_of_mem token (List.mem_of_mem_filter hmem)
  exact h _ _ hstart

end Inherited

end Parser

-----------------------------------------------------------------------------------------
-- Grammars and languages
-----------------------------------------------------------------------------------------

section Grammars

variable {ρ κ : Type} {perform : κ → Token α → Except ParseError (Token α)}
  {resolve : ρ → Parser α} {grammar : Grammar ρ κ} {language : Language ρ κ α}

/-- All actions in the grammar keep the property. -/
def Grammar.ActsKeep (property : Token α → Prop)
    (perform : κ → Token α → Except ParseError (Token α)) (grammar : Grammar ρ κ)
    : Prop :=
  ∀ action body, .act action body ∈ grammar.allParts → Parser.Keeps property (perform action)

/-- If all actions in a grammar keep the property, so do those in its parts. -/
theorem Grammar.ActsKeep.part {body : Grammar ρ κ} (h : grammar.ActsKeep property perform)
    (hparts : body.allParts ⊆ grammar.allParts)
    : body.ActsKeep property perform :=
  fun action inner hinner => h action inner (hparts hinner)

/-- A grammar only reads tokens with the property if its actions keep it and the rules that it
enters only read such tokens, by induction on the grammar. Tokens of lookaheads and of
delimiters do not become part of others.
-/
theorem Grammar.readsOnly (inherited : Parser.Inherited property source)
    (hresolve : ∀ name, (resolve name).ReadsOnly property source)
    (hacts : grammar.ActsKeep property perform)
    : (grammar.parser perform resolve).ReadsOnly property source := by
  induction grammar with
  | literal expected => exact inherited.literal expected
  | pattern expected => exact inherited.pattern expected
  | fail message =>
      intro index token hreads
      contradiction
  | emit size kind => exact inherited.emit size kind
  | ignored body => exact inherited.ignored _
  | optional body ih => exact inherited.optional (ih (hacts.part (List.subset_cons_self ..)))
  | choice bodies ih =>
      refine Parser.readsOnly_choice (forall_mem_parsers.mpr fun body hmem => ?_)
      exact ih body hmem (hacts.part (allParts_subset_choice hmem))
  | sequence bodies ahead ih =>
      refine inherited.sequence _ (forall_mem_parsers.mpr fun body hmem => ?_)
      exact ih body hmem (hacts.part (allParts_subset_sequence hmem))
  | list item delimiter ahead ih =>
      exact inherited.list _ _ (ih (hacts.part allParts_subset_list_item))
  | act action body ih =>
      have hbody := ih (hacts.part (List.subset_cons_self ..))
      exact hbody.refine (hacts action body (List.mem_cons_self ..))
  | reword rewording body ih =>
      intro index token hreads
      have hbody := ih (hacts.part (List.subset_cons_self ..))
      exact hbody _ _ (Parser.reword_reads_iff.mp hreads)
  | rule name => exact hresolve name

/-- Rules only read tokens with the property, however deep they may be nested, by induction on the
depth.
-/
theorem Language.rule_readsOnly (inherited : Parser.Inherited property source)
    (hrules
      : ∀ name body,
          language.definition name = some body → body.ActsKeep property language.perform)
    (depth : Nat) (name : ρ)
    : (language.rule depth name).ReadsOnly property source := by
  refine rule_induction (fun _ parser => parser.ReadsOnly property source) ?_ ?_ depth name
  · intro name index token hreads
    contradiction
  · intro depth name body hbody ih
    exact Grammar.readsOnly inherited ih (hrules name body hbody)

/-- A grammar of a language only reads tokens with the property if all actions keep it, since
its rules only read such tokens.
-/
theorem Language.parser_readsOnly (inherited : Parser.Inherited property source)
    (hrules
      : ∀ name body,
          language.definition name = some body → body.ActsKeep property language.perform)
    (hgrammar : grammar.ActsKeep property language.perform)
    : (language.parser grammar).ReadsOnly property source :=
  Grammar.readsOnly inherited (rule_readsOnly inherited hrules _) hgrammar

end Grammars

end TokenGrammar
