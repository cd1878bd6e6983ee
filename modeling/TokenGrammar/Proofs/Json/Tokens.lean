import TokenGrammar.Json.Token
import TokenGrammar.Proofs.Json.Documents
import TokenGrammar.Proofs.Quotation

/-! The compact form of tokens, whose own data are 64-bit integers. Values are written without their
form, and names of groups not at all; still, the text of a token tells everything but these names,
unless an empty value occurs in it, which grammars with relabellings never yield.
-/

namespace TokenGrammar

open Json (Document)

variable {α : Type}

-----------------------------------------------------------------------------------------
-- Trees
-----------------------------------------------------------------------------------------

namespace Token

variable {token part : Token α}

/-- A part of a token is smaller than the token, whether the token holds it alone or among
others.
-/
theorem sizeOf_lt_of_mem_parts (h : part ∈ token.parts) : sizeOf part < sizeOf token := by
  obtain ⟨index, size, kind, value⟩ := token
  cases value with
  | token inner =>
      obtain rfl := List.mem_singleton.mp h
      simp
      omega
  | tokens items =>
      have hlt := List.sizeOf_lt_of_mem (show part ∈ items from h)
      simp
      omega
  | _ => contradiction

/-- What holds of each token if it holds of those that the token holds, holds of all of them, by
recursion on their size.
-/
theorem induction {holds : Token α → Prop}
    (step : ∀ token : Token α, (∀ part ∈ token.parts, holds part) → holds token)
    (token : Token α)
    : holds token := by
  refine step token fun part hpart => ?_
  have hsmaller := sizeOf_lt_of_mem_parts hpart
  exact induction step part
termination_by sizeOf token

end Token

-----------------------------------------------------------------------------------------
-- Names of groups
-----------------------------------------------------------------------------------------

/-- The texts of the groups alone. -/
def Groups.withoutNames (groups : Groups) : Groups :=
  { groups with names := [] }

mutual

/-- The token without the names of groups, in the tokens in it too. -/
def Token.withoutNames : Token α → Token α
  | ⟨index, size, kind, value⟩ => ⟨index, size, kind, value.withoutNames⟩

/-- The value without the names of groups. -/
def Value.withoutNames : Value α → Value α
  | .none => .none
  | .text content => .text content
  | .groups content => .groups content.withoutNames
  | .token content => .token content.withoutNames
  | .tokens content => .tokens (tokensWithoutNames content)
  | .custom content => .custom content

/-- All tokens without the names of groups. -/
def tokensWithoutNames : List (Token α) → List (Token α)
  | [] => []
  | token :: rest => token.withoutNames :: tokensWithoutNames rest

end

theorem tokensWithoutNames_eq_map (tokens : List (Token α))
    : tokensWithoutNames tokens = tokens.map Token.withoutNames := by
  induction tokens with
  | nil => rfl
  | cons token rest ih => rw [tokensWithoutNames, ih, List.map_cons]

section Documents

variable (custom : α → Document)

theorem tokenDocuments_eq_map (tokens : List (Token α))
    : tokenDocuments custom tokens = tokens.map (Token.document custom) := by
  induction tokens with
  | nil => rfl
  | cons token rest ih => rw [tokenDocuments, ih, List.map_cons]

/-- Names of groups are not written, by induction on the tokens that a token holds. -/
theorem Token.document_withoutNames (token : Token α)
    : token.withoutNames.document custom = token.document custom := by
  induction token using Token.induction with
  | step token ih =>
      obtain ⟨index, size, kind, value⟩ := token
      rw [withoutNames, document, document]
      refine congrArg _ ?_
      cases value with
      | token content => exact ih content (List.mem_singleton_self _)
      | tokens content =>
          simp only [Value.withoutNames, Value.document, tokensWithoutNames_eq_map,
            tokenDocuments_eq_map, List.map_map]
          exact congrArg _ (List.map_congr_left ih)
      | _ => rfl

end Documents

-----------------------------------------------------------------------------------------
-- Empty values
-----------------------------------------------------------------------------------------

/-- The value consists of no tokens, or of no groups, not even that of the whole match. -/
def Value.IsEmpty : Value α → Prop
  | .groups content => content.isEmpty
  | .tokens content => content = []
  | _ => False

namespace Token

variable {token : Token α}

/-- Neither the value of the token nor that of any token in it, at any depth, is empty. -/
def Filled (token : Token α) : Prop :=
  ∀ part : Token α, part.PartOf token → ¬ part.value.IsEmpty

/-- A token is filled if its value is not empty and the tokens that it holds are filled. -/
theorem filled_iff : token.Filled ↔ ¬ token.value.IsEmpty ∧ ∀ part ∈ token.parts, part.Filled :=
  forall_partOf_iff

/-- An ignored token is filled, as it has no value and holds no tokens. -/
theorem filled_ignored (index size : Nat) : (ignored index size : Token α).Filled :=
  filled_iff.mpr ⟨id, nofun⟩

/-- Another label makes no difference to what a token holds, so the token stays filled. -/
theorem Filled.relabel (h : token.Filled) (kind : Kind)
    : (token.relabel kind token.value).Filled := by
  obtain ⟨hself, hparts⟩ := filled_iff.mp h
  exact filled_iff.mpr ⟨hself, hparts⟩

end Token

-----------------------------------------------------------------------------------------
-- Tokens that grammars read
-----------------------------------------------------------------------------------------

/-- Patterns yield at least the group of the whole match, and sequences and lists retain at least
one token.
-/
theorem Parser.inherited_filled (source : Source)
    : Inherited (Token.Filled : Token α → Prop) source where
  literal expected index token hreads := by
    obtain ⟨rest, -, -, rfl⟩ := Literal.reads_iff.mp hreads
    exact Token.filled_iff.mpr ⟨id, nofun⟩
  pattern expected index token hreads := by
    obtain ⟨place, cursor, -, -, rfl⟩ := Pattern.reads_iff.mp hreads
    exact Token.filled_iff.mpr ⟨nofun, nofun⟩
  none index size kind := Token.filled_iff.mpr ⟨id, nofun⟩
  tokens index size kind items hne h := Token.filled_iff.mpr ⟨hne, h⟩

/-- A new value is only empty if the old one is, because no projection makes a list of tokens or
groups by itself.
-/
theorem Projection.not_isEmpty_apply {token : Token Int64} (h : ¬ token.value.IsEmpty)
    (projection : Projection)
    : ¬ (projection.apply token).IsEmpty := by
  cases projection with
  | none | wrap | full | capture | count | size => exact id
  | keep => exact h
  | first =>
      rw [apply]
      rcases token.value with _ | _ | _ | _ | (_ | _) | _ <;> exact id
  | integer =>
      rw [apply]
      cases int64? token.value.fullText.toList <;> exact id

/-- No relabelling makes a value empty: what a new value holds is the token itself or one that
it has held.
-/
theorem Relabelling.keepsFilled (relabelling : Relabelling)
    : Parser.Keeps Token.Filled fun token => .ok (relabelling.apply token) := by
  intro token changed hok hfilled
  obtain rfl := Except.ok.inj hok
  cases relabelling with
  | produce name projection =>
      obtain ⟨hself, hparts⟩ := Token.filled_iff.mp hfilled
      refine Token.filled_iff.mpr ⟨projection.not_isEmpty_apply hself, fun part hpart => ?_⟩
      rcases Projection.eq_or_mem_of_mem_parts hpart with rfl | hheld
      · exact hfilled
      · exact hparts part hheld
  | label name => exact hfilled.relabel _
  | ignore => exact Token.filled_ignored _ _
  | same => exact hfilled

/-- What a grammar with relabellings reads has no empty values, because no combinator makes one
and relabellings keep tokens filled.
-/
theorem Language.filled_of_reads {rules : List (String × Grammar String Relabelling)}
    {grammar : Grammar String Relabelling} {source : Source} {index : Nat} {token : Token Int64}
    (hreads : ((ofRules rules).parser grammar source index).outcome = .matched token)
    : token.Filled := by
  have hacts (body : Grammar String Relabelling)
      : body.ActsKeep Token.Filled (ofRules rules).perform :=
    fun relabelling _ _ => relabelling.keepsFilled
  have hparser : ((ofRules rules).parser grammar).ReadsOnly Token.Filled source :=
    parser_readsOnly (Parser.inherited_filled source) (fun _ body _ => hacts body) (hacts grammar)
  exact hparser index token hreads

-----------------------------------------------------------------------------------------
-- Documents of tokens
-----------------------------------------------------------------------------------------

/-- A 64-bit integer as a document. -/
def Json.integerDocument (value : Int64) : Document :=
  .integer value.toInt

/-- A token, whose own data are 64-bit integers, on one line. -/
def Token.compactText (token : Token Int64) : String :=
  (token.document Json.integerDocument).compact

section Documents

variable {tokens tokens' : List (Token Int64)}

/-- A text that may be missing is written as a string or as null, with no floating-point number.
-/
theorem Json.isExact_optionalString (text : Option String)
    : (Json.optionalString text).IsExact := by
  cases text with
  | none => exact .null
  | some content => exact .string content

/-- There are no floating-point numbers in the document of a token, by induction on the tokens
that it holds.
-/
theorem Token.isExact_document (token : Token Int64)
    : (token.document Json.integerDocument).IsExact := by
  induction token using Token.induction with
  | step token ih =>
      obtain ⟨index, size, kind, value⟩ := token
      have hvalue : (value.document Json.integerDocument).IsExact := by
        cases value with
        | none => exact .null
        | text content => exact .string content
        | groups content =>
            exact .array (List.forall_mem_map.mpr fun text _ => Json.isExact_optionalString text)
        | token content => exact ih content (List.mem_singleton_self _)
        | tokens content =>
            rw [Value.document, tokenDocuments_eq_map]
            exact .array (List.forall_mem_map.mpr ih)
        | custom content => exact .integer _
      refine .object ?_
      simp only [List.forall_mem_cons, List.not_mem_nil, IsEmpty.forall_iff, implies_true,
        and_true]
      exact ⟨.integer _, .integer _, Json.isExact_optionalString _, hvalue⟩

/-- A text that may be missing is told by its document, which is null if there is none. -/
theorem Json.optionalString_injective : Function.Injective Json.optionalString := by
  intro text other h
  cases text with
  | none =>
      cases other with
      | none => rfl
      | some _ => contradiction
  | some content =>
      cases other with
      | none => contradiction
      | some content' => exact congrArg some (Document.string.inj h)

/-- A kind is told by its document: that of an ignored token is null, and any other one is the
name.
-/
theorem Kind.document_injective : Function.Injective Kind.document := by
  intro kind other h
  have hname := Json.optionalString_injective h
  cases kind with
  | ignore =>
      cases other with
      | ignore => rfl
      | named _ => contradiction
  | named name =>
      cases other with
      | ignore => contradiction
      | named name' => exact congrArg Kind.named (Option.some.inj hname)

/-- The members of the object of a token are those of its fields, which it thus tells. -/
theorem tokenDocument_inj {index index' size size' : Nat} {kind kind' : Kind}
    {value value' : Document}
    (h : tokenDocument index size kind value = tokenDocument index' size' kind' value')
    : index = index' ∧ size = size' ∧ kind = kind' ∧ value = value' := by
  simp only [tokenDocument, Document.object.injEq, List.cons.injEq, Prod.mk.injEq, true_and,
    and_true, Document.integer.injEq, Int.natCast_inj] at h
  obtain ⟨hindex, hsize, hkind, hvalue⟩ := h
  exact ⟨hindex, hsize, Kind.document_injective hkind, hvalue⟩

/-- The form of the document of a value. Groups and tokens have one in common. -/
def Value.form : Value α → Json.Form
  | .none => .null
  | .text _ => .string
  | .groups _ => .array
  | .token _ => .object
  | .tokens _ => .array
  | .custom _ => .integer

/-- The document of a value has the form of the value, by cases on it. -/
theorem Value.form_document (value : Value Int64)
    : (value.document Json.integerDocument).form = value.form := by
  cases value with
  | token content =>
      cases content
      rfl
  | _ => rfl

/-- Values with the same document have documents of the same form, which is that of the values.
-/
theorem Value.form_eq_of_document_eq {value value' : Value Int64}
    (h : value.document Json.integerDocument = value'.document Json.integerDocument)
    : value.form = value'.form := by
  rw [← value.form_document, ← value'.form_document, h]

/-- No group is written like a token, which is an object. -/
theorem optionalString_ne_document (text : Option String) (token : Token Int64)
    : Json.optionalString text ≠ token.document Json.integerDocument := by
  cases text <;> cases token <;> nofun

/-- Groups, at least one, are not written like tokens, since the document of a group is not that
of a token.
-/
theorem groups_document_ne_tokens {groups : Groups} (hgroups : ¬ groups.isEmpty)
    : groups.document ≠ .array (tokenDocuments Json.integerDocument tokens) := by
  intro h
  rw [Groups.document, tokenDocuments_eq_map, Document.array.injEq] at h
  have htexts : groups.texts ≠ [] := by simpa [Groups.isEmpty] using hgroups
  obtain ⟨text, htext⟩ := List.exists_mem_of_ne_nil _ htexts
  obtain ⟨token, -, htoken⟩ := List.mem_map.mp (h ▸ List.mem_map_of_mem htext)
  exact optionalString_ne_document text token htoken.symm

/-- Groups are the same up to their names if their documents are, because each text is told by
its own.
-/
theorem groups_withoutNames_eq {groups groups' : Groups} (h : groups.document = groups'.document)
    : groups.withoutNames = groups'.withoutNames := by
  have htexts := Json.optionalString_injective.list_map (Document.array.inj h)
  rw [Groups.withoutNames, Groups.withoutNames, htexts]

/-- Tokens are the same up to names of groups if their documents are, and documents tell each of
them, by induction on both lists.
-/
theorem tokens_withoutNames_eq
    (h
      : ∀ token ∈ tokens, ∀ token' ∈ tokens',
          token.document Json.integerDocument = token'.document Json.integerDocument
          → token.withoutNames = token'.withoutNames)
    (heq
      : tokenDocuments Json.integerDocument tokens = tokenDocuments Json.integerDocument tokens')
    : tokensWithoutNames tokens = tokensWithoutNames tokens' := by
  induction tokens generalizing tokens' with
  | nil =>
      cases tokens' with
      | nil => rfl
      | cons token' rest' => contradiction
  | cons token rest ih =>
      cases tokens' with
      | nil => contradiction
      | cons token' rest' =>
          obtain ⟨htoken, hrest⟩ := List.cons.inj heq
          have hhead := h token (List.mem_cons_self ..) token' (List.mem_cons_self ..) htoken
          have htail := ih (fun part hpart part' hpart' => h part (List.mem_cons_of_mem _ hpart)
            part' (List.mem_cons_of_mem _ hpart')) hrest
          rw [tokensWithoutNames, tokensWithoutNames, hhead, htail]

end Documents

-----------------------------------------------------------------------------------------
-- Tokens told by their text
-----------------------------------------------------------------------------------------

section Texts

variable {token token' : Token Int64}

/-- A document tells the form of a value that is not empty. It tells the whole value up to names of
groups, if documents do so for the tokens that the value holds.
-/
theorem withoutNames_eq_of_parts (hself : ¬ token.value.IsEmpty) (hself' : ¬ token'.value.IsEmpty)
    (hparts
      : ∀ part ∈ token.parts, ∀ part' ∈ token'.parts,
          part.document Json.integerDocument = part'.document Json.integerDocument
          → part.withoutNames = part'.withoutNames)
    (heq : token.document Json.integerDocument = token'.document Json.integerDocument)
    : token.withoutNames = token'.withoutNames := by
  obtain ⟨index, size, kind, value⟩ := token
  obtain ⟨index', size', kind', value'⟩ := token'
  obtain ⟨rfl, rfl, rfl, hvalue⟩ := tokenDocument_inj heq
  suffices hsame : value.withoutNames = value'.withoutNames by
    rw [Token.withoutNames, Token.withoutNames, hsame]
  -- pairs of values whose documents differ in form are ruled out by it
  have hform := Value.form_eq_of_document_eq hvalue
  cases value with
  | none =>
      cases value' with
      | none => rfl
      | _ => cases hform
  | text content =>
      cases value' with
      | text content' => exact congrArg Value.text (Document.string.inj hvalue)
      | _ => cases hform
  | groups content =>
      cases value' with
      | groups content' => exact congrArg Value.groups (groups_withoutNames_eq hvalue)
      | tokens content' => exact absurd hvalue (groups_document_ne_tokens hself)
      | _ => cases hform
  | token content =>
      cases value' with
      | token content' =>
          exact congrArg Value.token
            (hparts _ (List.mem_singleton_self _) _ (List.mem_singleton_self _) hvalue)
      | _ => cases hform
  | tokens content =>
      cases value' with
      | groups content' => exact absurd hvalue.symm (groups_document_ne_tokens hself')
      | tokens content' =>
          exact congrArg Value.tokens (tokens_withoutNames_eq hparts (Document.array.inj hvalue))
      | _ => cases hform
  | custom content =>
      cases value' with
      | custom content' =>
          exact congrArg Value.custom (Int64.toInt_inj.mp (Document.integer.inj hvalue))
      | _ => cases hform

/-- Filled tokens with the same document are the same up to names of groups, by induction on the
tokens that they hold.
-/
theorem withoutNames_eq_of_document_eq (h : token.Filled) (h' : token'.Filled)
    (heq : token.document Json.integerDocument = token'.document Json.integerDocument)
    : token.withoutNames = token'.withoutNames := by
  induction token using Token.induction generalizing token' with
  | step token ih =>
      obtain ⟨hself, hparts⟩ := Token.filled_iff.mp h
      obtain ⟨hself', hparts'⟩ := Token.filled_iff.mp h'
      refine withoutNames_eq_of_parts hself hself' (fun part hpart part' hpart' => ?_) heq
      exact ih part hpart (hparts part hpart) (hparts' part' hpart')

end Texts

/-- The text of a token without empty values, on one line, tells the token up to the names of
groups: spans, kinds and values at every depth. Every token that a grammar with relabellings reads
is such a token.
-/
theorem compactText_tells_token
    : (∀ {token token' : Token Int64},
        token.Filled
        → token'.Filled
        → (token.compactText = token'.compactText ↔ token.withoutNames = token'.withoutNames))
      ∧ ∀ {rules : List (String × Grammar String Relabelling)}
          {grammar : Grammar String Relabelling} {source : Source} {index : Nat}
          {token : Token Int64},
          ((Language.ofRules rules).parser grammar source index).outcome = .matched token
          → token.Filled := by
  refine ⟨fun {token token'} hfilled hfilled' => ⟨fun htext => ?_, fun hsame => ?_⟩,
    Language.filled_of_reads⟩
  · have hdocument := Json.compact_inj token.isExact_document token'.isExact_document htext
    exact withoutNames_eq_of_document_eq hfilled hfilled' hdocument
  · rw [Token.compactText, Token.compactText, ← token.document_withoutNames,
      ← token'.document_withoutNames, hsame]

/-- A rule for what matches a pattern and a quotation mark, of which only the size is kept. -/
def markedRules (letter : Pattern) : List (String × Grammar String Relabelling) :=
  [("marked",
    .act (.produce "marked" .wrap)
      (.sequence [.pattern letter, .act (.produce "size" .size) (.literal (.exact "»"))] none))]

/-- What the rule reads in `a»` is written the same, with a name of the group or without. -/
theorem marked_told
    : let source := Source.ofString "a»"
      let parser (written : String) (name : Option String) : Parser Int64 :=
        (Language.ofRules
          (markedRules (Regex.pattern (.capture 1 name (.oneOf (.range 'a' 'z'))) written))).parser
          (.rule "marked")
      let named : Token Int64 :=
        ⟨0, 3, .named "marked",
          .token
            ⟨0, 3, .named "sequence",
              .tokens
                [⟨0, 1, .named "regex", .groups ⟨[some "a", some "a"], [none, some "letter"]⟩⟩,
                  ⟨1, 2, .named "size", .custom 2⟩]⟩⟩
      let unnamed : Token Int64 :=
        ⟨0, 3, .named "marked",
          .token
            ⟨0, 3, .named "sequence",
              .tokens
                [⟨0, 1, .named "regex", .groups ⟨[some "a", some "a"], [none, none]⟩⟩,
                  ⟨1, 2, .named "size", .custom 2⟩]⟩⟩
      (parser "(?P<letter>[a-z])" (some "letter") source 0).outcome = .matched named
      ∧ (parser "([a-z])" none source 0).outcome = .matched unnamed
      ∧ named.Filled
      ∧ unnamed.Filled
      ∧ named ≠ unnamed
      ∧ named.compactText = unnamed.compactText
      ∧ named.withoutNames = unnamed.withoutNames := by
  intro source parser named unnamed
  have hnamed : (parser "(?P<letter>[a-z])" (some "letter") source 0).outcome = .matched named :=
    rfl
  have hunnamed : (parser "([a-z])" none source 0).outcome = .matched unnamed := rfl
  obtain ⟨htells, hfilled⟩ := compactText_tells_token
  have htext : named.compactText = unnamed.compactText := rfl
  refine ⟨hnamed, hunnamed, hfilled hnamed, hfilled hunnamed, by simp [named, unnamed], htext, ?_⟩
  exact (htells (hfilled hnamed) (hfilled hunnamed)).mp htext

end TokenGrammar
