import TokenGrammar.Grammar.Relabelling
import TokenGrammar.Proofs.Contract
import TokenGrammar.Proofs.Grammars

/-! Languages that keep the contract of parsers: those whose grammars look at all the bytes that
they consume, outside of lookaheads.
-/

namespace TokenGrammar

variable {α : Type}

section Grammars

variable {ρ κ : Type} {perform : κ → Token α → Except ParseError (Token α)}
  {resolve : ρ → Parser α} {source : Source}

/-- Outside of lookaheads, every part of the grammar looks at the bytes that it consumes, new
wordings of errors keep their locations, and only admitted rules are entered.
-/
inductive Grammar.Attentive (admitted : ρ → Prop) : Grammar ρ κ → Prop where
  | literal (expected : Literal) : Attentive admitted (.literal expected)
  | pattern (expected : Pattern) : Attentive admitted (.pattern expected)
  | fail (message : String) : Attentive admitted (.fail message)
  | ignored {body : Grammar ρ κ} (inner : Attentive admitted body)
    : Attentive admitted (.ignored body)
  | optional {body : Grammar ρ κ} (inner : Attentive admitted body)
    : Attentive admitted (.optional body)
  | choice {bodies : List (Grammar ρ κ)} (each : ∀ body ∈ bodies, Attentive admitted body)
    : Attentive admitted (.choice bodies)
  | sequence {bodies : List (Grammar ρ κ)} (ahead : Option (Grammar ρ κ))
    (each : ∀ body ∈ bodies, Attentive admitted body)
    : Attentive admitted (.sequence bodies ahead)
  | list {item : Grammar ρ κ} {delimiter : Option (Grammar ρ κ)}
    (ahead : Option (Grammar ρ κ)) (inner : Attentive admitted item)
    (between : ∀ body ∈ delimiter, Attentive admitted body)
    : Attentive admitted (.list item delimiter ahead)
  | act {body : Grammar ρ κ} (action : κ) (inner : Attentive admitted body)
    : Attentive admitted (.act action body)
  | reword {body : Grammar ρ κ} {rewording : Rewording}
    (keeps : Parser.KeepsLocations rewording) (inner : Attentive admitted body)
    : Attentive admitted (.reword rewording body)
  | rule {name : ρ} (known : admitted name) : Attentive admitted (.rule name)

/-- An attentive grammar keeps the contract if its actions keep spans and the rules that it
enters keep the contract, by induction on how it is attentive.
-/
theorem Grammar.Attentive.contract {admitted : ρ → Prop} {grammar : Grammar ρ κ}
    (h : grammar.Attentive admitted) (hperform : ∀ action, Parser.KeepsSpan (perform action))
    (hresolve : ∀ name, admitted name → (resolve name).Contract source)
    : (grammar.parser perform resolve).Contract source := by
  induction h with
  | literal expected => exact Parser.contract_literal expected
  | pattern expected => exact Parser.contract_pattern expected
  | fail message => exact Parser.contract_fail message
  | ignored _ ih => exact ih.ignored
  | optional _ ih => exact ih.optional
  | choice _ ih =>
      rw [parser, parsers_eq_map]
      exact Parser.contract_choice (by simpa using ih)
  | sequence ahead _ ih =>
      rw [parser, parsers_eq_map]
      exact Parser.contract_sequence _ (by simpa using ih)
  | list ahead _ _ ihItem ihDelimiter =>
      rw [parser, parser?_eq_map]
      exact Parser.contract_list _ ihItem (by simpa using ihDelimiter)
  | act action _ ih => exact ih.refine (hperform action)
  | reword keeps _ ih => exact ih.reword keeps
  | rule known => exact hresolve _ known

end Grammars

section Languages

variable {ρ κ : Type} {language : Language ρ κ α} {admitted : ρ → Prop} {source : Source}
  {grammar : Grammar ρ κ}

/-- The admitted rules are attentive themselves, as far as they have a definition. -/
def Language.AttentiveOn (language : Language ρ κ α) (admitted : ρ → Prop) : Prop :=
  ∀ name body, admitted name → language.definition name = some body → body.Attentive admitted

/-- Admitted rules keep the contract, however deep they may be nested: by induction on the depth,
each rule relies on those that it enters.
-/
theorem Language.rule_contract
    (hperform : ∀ action, Parser.KeepsSpan (language.perform action))
    (hrules : language.AttentiveOn admitted) (depth : Nat) (name : ρ)
    (hname : admitted name)
    : (language.rule depth name).Contract source := by
  refine rule_induction (fun name parser => admitted name → parser.Contract source) ?_ ?_ depth
    name hname
  · exact fun _ _ => Parser.contract_unresolved
  · intro depth name body hbody ih hname
    exact (hrules name body hname hbody).contract hperform ih

/-- The parser of an attentive grammar keeps the contract, since its rules do at the depth that
the source allows.
-/
theorem Language.parser_contract
    (hperform : ∀ action, Parser.KeepsSpan (language.perform action))
    (hrules : language.AttentiveOn admitted) (hgrammar : grammar.Attentive admitted)
    : (language.parser grammar).Contract source := by
  have h : (language.parserWithin (language.depth source.size) grammar).Contract source :=
    hgrammar.contract hperform (language.rule_contract hperform hrules _)
  exact ⟨h.reads, h.fails⟩

/-- Relabellings keep spans, by cases on what they change. -/
theorem Relabelling.keepsSpan (relabelling : Relabelling)
    : Parser.KeepsSpan fun token => .ok (relabelling.apply token) := by
  constructor
  · intro token changed h
    obtain rfl := Except.ok.inj h
    cases relabelling <;> exact ⟨rfl, rfl⟩
  · intro token error h
    contradiction

theorem Rewording.keepsLocations_replaced (message : String)
    : Parser.KeepsLocations (.replaced message : Rewording) := by
  intro error part hpart
  obtain rfl := hpart.eq_of_causes_eq_nil rfl
  exact ⟨error, .self, rfl, nofun⟩

/-- A message that is merged with an error is where the error was, and so is what they are merged
into; the parts of the error stay where they were.
-/
theorem Rewording.keepsLocations_merged (message : String)
    : Parser.KeepsLocations (.merged message : Rewording) := by
  intro error part hpart
  rcases ParseError.partOf_alternatives_iff.mp hpart with rfl | ⟨inner, known, deeper⟩
  · exact ⟨error, .self, rfl, nofun⟩
  · rcases List.mem_cons.mp known with rfl | hmessage
    · exact ⟨part, deeper, rfl, id⟩
    · obtain rfl := List.mem_singleton.mp hmessage
      exact keepsLocations_replaced message deeper

/-- A token of an attentive grammar starts exactly where its parser was started, and ends at a
boundary of the source that is not before that, by the contract of its parser.
-/
theorem Language.token_covers_source
    (hperform : ∀ action, Parser.KeepsSpan (language.perform action))
    (hrules : language.AttentiveOn admitted) (hgrammar : grammar.Attentive admitted)
    {index : Nat} {token : Token α} (hindex : source.isBoundary index)
    (hreads : (language.parser grammar source index).outcome = .matched token)
    : token.index = index
      ∧ index ≤ token.stop
      ∧ token.stop ≤ source.size
      ∧ source.isBoundary token.stop := by
  have hcontract : (language.parser grammar).Contract source :=
    Language.parser_contract hperform hrules hgrammar
  obtain ⟨hstart, hstop⟩ := hcontract.reads hindex hreads
  exact ⟨hstart, hcontract.le_stop hindex hreads, source.le_size_of_isBoundary hstop, hstop⟩

/-- A rule for letters in nested parentheses, of which the last ones may stay open: its lookahead
consumes a byte blindly.
-/
def nestedRules : List (String × Grammar String Relabelling) :=
  [("nested",
    .choice
      [.sequence
          [.literal (.exact "("), .rule "nested", .literal (.exact ")")]
          (some (.emit 1 .ignore)),
        .act (.label "letter") (.literal (.exact "é"))])]

/-- The rule for nested letters is attentive, since the byte that is consumed blindly is in a
lookahead.
-/
theorem nestedRules_attentive
    : (Language.ofRules nestedRules).AttentiveOn fun name => name = "nested" := by
  intro name body hname hbody
  subst hname
  obtain rfl := Option.some.inj hbody
  refine .choice (List.forall_mem_cons.mpr ⟨.sequence _ ?_, ?_⟩)
  · simp [Grammar.Attentive.literal, Grammar.Attentive.rule]
  · simp [Grammar.Attentive.act, Grammar.Attentive.literal]

/-- In `(é]`, the lookahead ends the token before the bracket. -/
theorem nested_token_covers_source
    : let source := Source.ofString "(é]"
      let token : Token Int64 :=
        ⟨0, 3, .named "sequence",
          .tokens [⟨0, 1, .named "text", .text "("⟩, ⟨1, 2, .named "letter", .text "é"⟩]⟩
      ((Language.ofRules nestedRules).parser (.rule "nested") source 0).outcome = .matched token
      ∧ token.index = 0
      ∧ 0 ≤ token.stop
      ∧ token.stop ≤ source.size
      ∧ source.isBoundary token.stop := by
  intro source token
  have hreads
      : ((Language.ofRules nestedRules).parser (.rule "nested") source 0).outcome
        = .matched token :=
    rfl
  exact ⟨hreads, Language.token_covers_source Relabelling.keepsSpan nestedRules_attentive
    (.rule rfl) rfl hreads⟩

/-- Each part of an error of an attentive grammar lies at a boundary between the offset where the
parser was started and the end of the source, and at that end if it is an unexpected one. Only
merged errors have causes.
-/
theorem Language.error_lies_in_source
    (hperform : ∀ action, Parser.KeepsSpan (language.perform action))
    (hrules : language.AttentiveOn admitted) (hgrammar : grammar.Attentive admitted)
    {index : Nat} {error part : ParseError} (hindex : source.isBoundary index)
    (hfails : (language.parser grammar source index).outcome = .failed error)
    (hpart : part.PartOf error)
    : source.isBoundary part.index
      ∧ index ≤ part.index
      ∧ part.index ≤ source.size
      ∧ (part.kind = .unexpectedEnd → part.index = source.size)
      ∧ (part.causes ≠ [] → part.kind = .alternatives) := by
  have hcontract : (language.parser grammar).Contract source :=
    Language.parser_contract hperform hrules hgrammar
  obtain ⟨hboundary, hle, hend⟩ := hcontract.fails hindex hfails part hpart
  exact ⟨hboundary, hle, source.le_size_of_isBoundary hboundary, hend,
    ParseError.kind_eq_of_causes_ne_nil⟩

/-- In `(é`, the source ends where a parenthesis is missing. -/
theorem nested_error_lies_in_source
    : let source := Source.ofString "(é"
      let part : ParseError := .unexpectedEnd 3
      let error : ParseError :=
        .alternatives [part, .mismatch (.literal "é" "(") 0] 0
      ((Language.ofRules nestedRules).parser (.rule "nested") source 0).outcome = .failed error
      ∧ part.PartOf error
      ∧ source.isBoundary part.index
      ∧ 0 ≤ part.index
      ∧ part.index ≤ source.size
      ∧ (part.kind = .unexpectedEnd → part.index = source.size)
      ∧ (part.causes ≠ [] → part.kind = .alternatives) := by
  intro source part error
  have hfails
      : ((Language.ofRules nestedRules).parser (.rule "nested") source 0).outcome
        = .failed error :=
    rfl
  have hpart : part.PartOf error := .cause (List.mem_cons_self ..) .self
  exact ⟨hfails, hpart, Language.error_lies_in_source Relabelling.keepsSpan
    nestedRules_attentive (.rule rfl) rfl hfails hpart⟩

end Languages

end TokenGrammar
