import TokenGrammar.Proofs.Inheritance
import TokenGrammar.Proofs.Nesting
import TokenGrammar.Proofs.Termination
import TokenGrammar.Regex.Pattern

/-! Tokens that quote the source. Spans and values of tokens are kept apart, and labels, values and
wrappers are exchanged on the way; still, every text and every group in a tree of tokens is found in
the source where its token is, unless an action of the grammar adds a text of its own.
-/

namespace TokenGrammar

variable {α : Type}

-----------------------------------------------------------------------------------------
-- Trees
-----------------------------------------------------------------------------------------

namespace Token

/-- The token is part of another one: it is that token or part of one of those that it holds. -/
inductive PartOf (token : Token α) : Token α → Prop where
  | self : PartOf token token
  | part {inner outer : Token α} (held : inner ∈ outer.parts) (deeper : PartOf token inner)
    : PartOf token outer

/-- If the token has a text, it is what the token covers. If it has groups, the whole match is what
it covers, and each group that took part is a part of that.
-/
structure Quotes (source : Source) (token : Token α) : Prop where
  text
    : ∀ content,
        token.value = .text content
        → source.slice? token.index token.stop = some content.toList
  groups
    : ∀ content,
        token.value = .groups content
        → ∃ text,
            source.slice? token.index token.stop = some text
            ∧ content.full? = some (String.ofList text)
            ∧ ∀ number part, content.get? number = some part → part.toList <:+: text

/-- The token and all tokens in it, at any depth, quote the source. -/
def QuotesThroughout (source : Source) (token : Token α) : Prop :=
  ∀ part : Token α, part.PartOf token → part.Quotes source

variable {source : Source} {token inner : Token α}

/-- What holds of a token and of all tokens in it holds of the token itself and, in the same way, of
those that it holds.
-/
theorem forall_partOf_iff {property : Token α → Prop}
    : (∀ part : Token α, part.PartOf token → property part)
      ↔ property token
        ∧ ∀ inner ∈ token.parts, ∀ part : Token α, part.PartOf inner → property part := by
  constructor
  · intro h
    exact ⟨h token .self, fun part hpart deeper hdeeper => h deeper (.part hpart hdeeper)⟩
  · rintro ⟨hself, hparts⟩ part hpart
    cases hpart with
    | self => exact hself
    | part held deeper => exact hparts _ held part deeper

/-- A token quotes the source throughout if it does itself, and so do the tokens that it holds.
-/
theorem quotesThroughout_iff
    : token.QuotesThroughout source
      ↔ token.Quotes source ∧ ∀ part ∈ token.parts, part.QuotesThroughout source :=
  forall_partOf_iff

/-- A token that only holds other tokens quotes what these do, for it has no text and no groups
of its own.
-/
theorem quotesThroughout_of_parts (htext : token.value.text? = none)
    (hgroups : token.value.groups? = none)
    (hparts : ∀ part ∈ token.parts, part.QuotesThroughout source)
    : token.QuotesThroughout source := by
  refine quotesThroughout_iff.mpr ⟨⟨fun content hvalue => ?_, fun content hvalue => ?_⟩, hparts⟩
  · rw [hvalue] at htext
    contradiction
  · rw [hvalue] at hgroups
    contradiction

theorem QuotesThroughout.relabel (h : token.QuotesThroughout source) (kind : Kind)
    : (token.relabel kind token.value).QuotesThroughout source := by
  obtain ⟨⟨htext, hgroups⟩, hparts⟩ := quotesThroughout_iff.mp h
  exact quotesThroughout_iff.mpr ⟨⟨htext, hgroups⟩, hparts⟩

theorem quotesThroughout_ignored (index size : Nat)
    : (ignored index size : Token α).QuotesThroughout source :=
  quotesThroughout_of_parts rfl rfl nofun

end Token

-----------------------------------------------------------------------------------------
-- Groups
-----------------------------------------------------------------------------------------

namespace Pattern

variable {pattern : Pattern} {chars : List Char} {found : Match} {number : Nat}
  {part : String}

/-- The text of a group is part of the match if the span of the group lies within it: it is
taken from what the match passed.
-/
theorem infix_of_groupText? (hwithin : found.SpansWithin)
    (h : groupText? chars found number = some part)
    : part.toList <:+: chars.take found.passed := by
  obtain ⟨span, hspan, rfl⟩ := Option.map_eq_some_iff.mp h
  obtain ⟨before, after, hsplit, -⟩ := List.lookup_eq_some_iff.mp hspan
  have hstop : span.stop ≤ found.passed := (hwithin (number, span) (by simp [hsplit])).2
  have hpart : (chars.drop span.start).take (span.stop - span.start)
      = (chars.take span.stop).drop span.start :=
    List.drop_take.symm
  rw [String.toList_ofList, hpart]
  exact (List.drop_suffix ..).isInfix.trans (List.take_prefix_take_left hstop).isInfix

/-- The whole match and all groups are part of the match, by cases on which of them it is. -/
theorem infix_of_get? (hwithin : found.SpansWithin)
    (h : (pattern.groups chars found).get? number = some part)
    : part.toList <:+: chars.take found.passed := by
  have hmem : some part ∈ (pattern.groups chars found).texts :=
    List.mem_of_getElem? (Option.join_eq_some_iff.mp h)
  rcases List.mem_cons.mp hmem with hfull | hgroup
  · have hwhole : part.toList = chars.take found.passed := by
      rw [Option.some.inj hfull, String.toList_ofList]
    exact hwhole ▸ List.infix_rfl
  · obtain ⟨group, -, hgroup⟩ := List.mem_map.mp hgroup
    exact infix_of_groupText? hwithin hgroup

end Pattern

-----------------------------------------------------------------------------------------
-- Parsers
-----------------------------------------------------------------------------------------

namespace Parser

variable {source : Source}

/-- All tokens in what the parser reads quote the source. -/
def Quotes (source : Source) (parser : Parser α) : Prop :=
  ∀ index token, parser.Reads source index token → token.QuotesThroughout source

/-- The change leaves trees of tokens that quote the source as such. -/
def KeepsQuotes (source : Source) (change : Token α → Except ParseError (Token α)) : Prop :=
  ∀ {token changed},
    change token = .ok changed
    → token.QuotesThroughout source
    → changed.QuotesThroughout source

/-- The text of a literal is its sample, which is as it is in the source in any case. -/
theorem quotes_literal (expected : Literal) : (expected.parser : Parser α).Quotes source := by
  intro index token hreads
  obtain ⟨rest, hrest, -, rfl⟩ := Literal.reads_iff.mp hreads
  refine Token.quotesThroughout_iff.mpr ⟨⟨?_, nofun⟩, nofun⟩
  rintro content ⟨rfl⟩
  rw [String.toList_ofList]
  exact source.slice?_take _ hrest

/-- The whole match of a pattern is what the token covers, and its matcher promises that groups lie
within the match.
-/
theorem quotes_pattern (expected : Pattern) : (expected.parser : Parser α).Quotes source := by
  intro index token hreads
  obtain ⟨place, found, hplace, hmatch, rfl⟩ := Pattern.reads_iff.mp hreads
  refine Token.quotesThroughout_iff.mpr ⟨⟨nofun, fun content hvalue => ?_⟩, nofun⟩
  have hgroups := Value.groups.inj hvalue
  rw [List.take_append_drop, List.length_take,
    Nat.min_eq_left (expected.matcher.passed_le hmatch)] at hgroups
  subst hgroups
  have hslice := source.slice?_take found.passed (source.rest?_of_at? hplace)
  refine ⟨place.after.take found.passed, hslice, rfl, fun number part hpart => ?_⟩
  exact Pattern.infix_of_get? (expected.matcher.spansWithin hmatch) hpart

theorem inherited_quotes (source : Source)
    : Inherited (fun token : Token α => token.QuotesThroughout source) source where
  literal := quotes_literal
  pattern := quotes_pattern
  none _ _ _ := Token.quotesThroughout_of_parts rfl rfl nofun
  tokens _ _ _ _ _ h := Token.quotesThroughout_of_parts rfl rfl h

end Parser

-----------------------------------------------------------------------------------------
-- Grammars and languages
-----------------------------------------------------------------------------------------

section Grammars

variable {ρ κ : Type} {source : Source}

/-- All actions in the grammar keep quotes. -/
def Grammar.ActsKeepQuotes (perform : κ → Token α → Except ParseError (Token α))
    (source : Source) (grammar : Grammar ρ κ)
    : Prop :=
  ∀ action body, .act action body ∈ grammar.allParts → Parser.KeepsQuotes source (perform action)

/-- A grammar quotes the source if its actions keep quotes and the rules that it enters quote
the source, since quotes are inherited.
-/
theorem Grammar.quotes {perform : κ → Token α → Except ParseError (Token α)}
    {resolve : ρ → Parser α} (hresolve : ∀ name, (resolve name).Quotes source)
    {grammar : Grammar ρ κ} (hacts : grammar.ActsKeepQuotes perform source)
    : (grammar.parser perform resolve).Quotes source :=
  Grammar.readsOnly (Parser.inherited_quotes source) hresolve hacts

/-- Rules quote the source, however deep they may be nested, since quotes are inherited. -/
theorem Language.rule_quotes {language : Language ρ κ α}
    (hrules
      : ∀ name body,
          language.definition name = some body → body.ActsKeepQuotes language.perform source)
    (depth : Nat) (name : ρ)
    : (language.rule depth name).Quotes source :=
  Language.rule_readsOnly (Parser.inherited_quotes source) hrules depth name

end Grammars

-----------------------------------------------------------------------------------------
-- Relabellings
-----------------------------------------------------------------------------------------

/-- The new value of a token is a text of its own, and not what it held before. -/
def Projection.addsText : Projection → Bool
  | .full => true
  | .capture => true
  | _ => false

/-- The changed token has a text of its own. -/
def Relabelling.addsText : Relabelling → Bool
  | .produce _ projection => projection.addsText
  | _ => false

/-- No relabelling in the grammar adds a text of its own. -/
def Grammar.AddsNoText {ρ : Type} (grammar : Grammar ρ Relabelling) : Prop :=
  ∀ relabelling body, .act relabelling body ∈ grammar.allParts → relabelling.addsText = false

/-- A new value that is neither a text of its own nor the old value has no text and no groups,
by cases on the projection.
-/
theorem Projection.apply_holds_no_text {projection : Projection} (hkeep : projection ≠ .keep)
    (hadds : projection.addsText = false) (token : Token Int64)
    : (projection.apply token).text? = .none ∧ (projection.apply token).groups? = .none := by
  cases projection with
  | keep | full | capture => contradiction
  | none | wrap | count | size => exact ⟨rfl, rfl⟩
  | first =>
      rw [apply]
      rcases token.value with _ | _ | _ | _ | (_ | _) | _ <;> exact ⟨rfl, rfl⟩
  | integer =>
      rw [apply]
      cases int64? token.value.fullText.toList <;> exact ⟨rfl, rfl⟩

/-- A token with a new value that adds no text quotes what the token itself does, or what the tokens
do that the new value holds.
-/
theorem Projection.quotesThroughout_relabel {source : Source} {token : Token Int64}
    (h : token.QuotesThroughout source) {projection : Projection}
    (hadds : projection.addsText = false) (kind : Kind)
    : (token.relabel kind (projection.apply token)).QuotesThroughout source := by
  by_cases hkeep : projection = .keep
  · rw [hkeep]
    exact h.relabel kind
  obtain ⟨htext, hgroups⟩ := apply_holds_no_text hkeep hadds token
  refine Token.quotesThroughout_of_parts htext hgroups fun part hpart => ?_
  rcases eq_or_mem_of_mem_parts hpart with rfl | hheld
  · exact h
  · exact (Token.quotesThroughout_iff.mp h).2 part hheld

/-- Relabellings that add no text keep quotes, by cases on the relabelling. -/
theorem Relabelling.keepsQuotes (source : Source) {relabelling : Relabelling}
    (h : relabelling.addsText = false)
    : Parser.KeepsQuotes source fun token => .ok (relabelling.apply token) := by
  intro token changed hok hquotes
  obtain rfl := Except.ok.inj hok
  cases relabelling with
  | produce name projection => exact Projection.quotesThroughout_relabel hquotes h _
  | label name => exact hquotes.relabel _
  | ignore => exact Token.quotesThroughout_ignored _ _
  | same => exact hquotes

/-- In the tree of any token that a grammar with relabellings reads, each text is what its token
covers of the source. Where a token has groups, the whole match is what it covers, and the other
groups that took part are parts of that. No relabelling of the grammar and its rules may add a text
of its own.
-/
theorem Language.token_quotes_source {rules : List (String × Grammar String Relabelling)}
    {grammar : Grammar String Relabelling} {source : Source} {index : Nat}
    {token part : Token Int64}
    (hrules : ∀ name body, (ofRules rules).definition name = some body → body.AddsNoText)
    (hgrammar : grammar.AddsNoText)
    (hreads : ((ofRules rules).parser grammar source index).outcome = .matched token)
    (hpart : part.PartOf token)
    : part.Quotes source := by
  have hacts {body : Grammar String Relabelling} (hbody : body.AddsNoText)
      : body.ActsKeepQuotes (ofRules rules).perform source :=
    fun relabelling inner hinner => Relabelling.keepsQuotes source (hbody relabelling inner hinner)
  have hresolve (depth : Nat) (name : String) : ((ofRules rules).rule depth name).Quotes source :=
    rule_quotes (fun name body hbody => hacts (hrules name body hbody)) depth name
  exact Grammar.quotes (hresolve _) (hacts hgrammar) _ _ hreads part hpart

/-- A rule for pairs of a name of one or two letters, each of which is a group, and either a pair
again or a letter in any case.
-/
def pairRules : List (String × Grammar String Relabelling) :=
  let name : Pattern :=
    Regex.pattern
      (.append (.capture 1 none (.oneOf (.range 'a' 'z')))
        (.zeroOrOne (.capture 2 none (.oneOf (.range 'a' 'z')))))
      "([a-z])([a-z])?"
  [("pair",
    .act (.produce "pair" .wrap)
      (.sequence
        [.pattern name, .ignored (.literal (.exact ":")),
          .choice [.rule "pair", .act (.produce "letter" .keep) (.literal (.anyCase "é"))]]
        none))]

/-- No rule for pairs adds a text of its own, by a look at all their parts. -/
theorem pairRules_addNoText (name : String) (body : Grammar String Relabelling)
    (hbody : (Language.ofRules pairRules).definition name = some body)
    : body.AddsNoText := by
  have hmem := Language.mem_of_definition hbody
  simp only [pairRules, List.mem_singleton, Prod.mk.injEq] at hmem
  obtain ⟨-, rfl⟩ := hmem
  simp [Grammar.AddsNoText, Grammar.parts, Grammar.partsOfAll, Grammar.partsInOrder,
    Grammar.parts?, or_imp, forall_and, Relabelling.addsText, Projection.addsText]

/-- In `b:É`, the second group of the name takes no part, and the letter is not the literal. -/
theorem pair_quotes_source
    : let grammar : Grammar String Relabelling := .rule "pair"
      let source := Source.ofString "b:É"
      let name : Token Int64 :=
        ⟨0, 1, .named "regex", .groups ⟨[some "b", some "b", none], [none, none, none]⟩⟩
      let letter : Token Int64 := ⟨2, 2, .named "letter", .text "É"⟩
      let token : Token Int64 :=
        ⟨0, 4, .named "pair", .token ⟨0, 4, .named "sequence", .tokens [name, letter]⟩⟩
      grammar.AddsNoText
      ∧ ((Language.ofRules pairRules).parser grammar source 0).outcome = .matched token
      ∧ (name.PartOf token ∧ name.Quotes source)
      ∧ letter.PartOf token
      ∧ letter.Quotes source := by
  intro grammar source name letter token
  have hgrammar : grammar.AddsNoText := by
    intro relabelling body hpart
    simp [grammar, Grammar.parts] at hpart
  have hreads : ((Language.ofRules pairRules).parser grammar source 0).outcome = .matched token :=
    rfl
  have hpart (part : Token Int64) (hmem : part ∈ [name, letter]) : part.PartOf token :=
    .part (List.mem_singleton_self _) (.part hmem .self)
  have hquotes (part : Token Int64) (hmem : part ∈ [name, letter]) : part.Quotes source :=
    Language.token_quotes_source pairRules_addNoText hgrammar hreads (hpart part hmem)
  have hname : name ∈ [name, letter] := List.mem_cons_self ..
  have hletter : letter ∈ [name, letter] := List.mem_cons_of_mem _ (List.mem_singleton_self _)
  exact ⟨hgrammar, hreads, ⟨hpart _ hname, hquotes _ hname⟩, hpart _ hletter, hquotes _ hletter⟩

end TokenGrammar
