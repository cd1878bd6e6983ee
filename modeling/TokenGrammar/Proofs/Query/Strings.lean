import TokenGrammar.Proofs.Query.Operands
import TokenGrammar.Proofs.Query.Rules

/-! Strings are read as what was quoted. The closing quote is the first one that no other quote
follows, apart from those in pairs, so any text can be quoted, also one that starts or ends with
quotes or has nothing else in it.
-/

namespace TokenGrammar.Query

variable {source : Source} {index : Nat} {rest : List Char} {tree : Tree}

/-- The text in quotes, with each quote in it doubled. -/
def quoted (content : List Char) : List Char :=
  '\'' :: (doubled content ++ ['\''])

/-- The token of a string with this content. -/
def stringToken (index : Nat) (content : List Char) : Tree :=
  { index
    size := byteLength (quoted content)
    kind := .named "string"
    value := .text (String.ofList content) }

theorem content_of_captured {token : Tree} {content : List Char}
    (h : groupText? 1 token = some (String.ofList (doubled content)))
    : unquoted ((groupText? 1 token).getD "").toList = content := by
  rw [h, Option.getD_some, String.toList_ofList, unquoted_doubled]

/-- What is quoted is read as a string if no quote follows it, since the pattern takes and
captures it.
-/
theorem string_reads_quoted (content : List Char) (hquote : ∀ char ∈ rest.head?, char ≠ '\'')
    (hrest : source.rest? index = some (quoted content ++ rest))
    : (parser string).Reads source index (stringToken index content) := by
  have hgroup
      : groupText? 1
          (stringPattern.tokenOf index (quoted content) rest
            [(1, ⟨1, 1 + (doubled content).length⟩)])
        = some (String.ofList (doubled content)) :=
    @groupText?_one_tokenOf index stringPattern stringPattern_encloses.groupNames_length ['\'']
      (doubled content) ['\''] rest
  have htakes
      : stringPattern.matcher.Takes (quoted content) rest
          [(1, ⟨1, 1 + (doubled content).length⟩)] :=
    stringPattern_takes content hquote
  refine string_reads_iff.mpr ⟨_, Pattern.reads_of_takes htakes hrest, ?_⟩
  rw [content_of_captured hgroup]
  rfl

/-- A string that is read covers what its content is if it is quoted, since the pattern encloses
such a text in quotes.
-/
theorem exists_quoted_of_reads (h : (parser string).Reads source index tree)
    : ∃ content,
        tree = stringToken index content
        ∧ source.slice? index tree.stop = some (quoted content) := by
  obtain ⟨token, htoken, rfl⟩ := string_reads_iff.mp h
  obtain ⟨rfl, _, _, _, hslice, rfl, ⟨content, rfl⟩, rfl, hgroup⟩ :=
    stringPattern_encloses.exists_of_reads htoken
  have hslice' : source.slice? token.index token.stop = some (quoted content) := hslice
  have hstop : token.index + token.size = token.index + byteLength (quoted content) :=
    source.stop_eq_of_slice? hslice'
  have hsize : token.size = byteLength (quoted content) := Nat.add_left_cancel hstop
  refine ⟨content, ?_, hslice'⟩
  rw [content_of_captured hgroup, Token.relabel, hsize]
  rfl

/-- Every text is read back from its quoted form, wherever this stands, if no quote follows it; and
whatever is read as a string is the quoted form of its content.
-/
theorem string_reads_back
    : (∀ front content rest : List Char,
        (∀ char ∈ rest.head?, char ≠ '\'')
        → (parser string (.ofChars (front ++ (quoted content ++ rest)))
              (byteLength front)).outcome
          = .matched (stringToken (byteLength front) content))
      ∧ ∀ (source : Source) (index : Nat) (token : Tree),
          (parser string source index).outcome = .matched token
          → ∃ content,
              token = stringToken index content
              ∧ source.slice? index token.stop = some (quoted content) := by
  constructor
  · intro front content rest hquote
    refine string_reads_quoted content hquote ?_
    exact Source.rest?_eq_some_iff.mpr ⟨front, rfl, rfl⟩
  · intro source index token h
    exact exists_quoted_of_reads h

/-- Quotes at both ends of a text are read back, in front of another string. -/
theorem quotes_read_back
    : let front := "é=".toList
      let content := "''a'".toList
      let rest := " 'b'".toList
      let source : Source := .ofChars (front ++ (quoted content ++ rest))
      (∀ char ∈ rest.head?, char ≠ '\'')
      ∧ source.chars = "é='''''a''' 'b'".toList
      ∧ (parser string source 3).outcome = .matched (stringToken 3 content)
      ∧ ∃ content',
          stringToken 3 content = stringToken 3 content'
          ∧ source.slice? 3 (stringToken 3 content).stop = some (quoted content') := by
  intro front content rest source
  have hrest : ∀ char ∈ rest.head?, char ≠ '\'' := by
    simp [rest]
  obtain ⟨hquoted, hread⟩ := string_reads_back
  have hmatched := hquoted front content rest hrest
  exact ⟨hrest, rfl, hmatched, hread source 3 _ hmatched⟩

end TokenGrammar.Query
