import TokenGrammar.Proofs.Arithmetic.Patterns
import TokenGrammar.Proofs.Regex.Texts
import TokenGrammar.Query.Grammar

/-! The texts that the patterns of queries match, and what their tokens capture of them. -/

namespace TokenGrammar.Query

open Arithmetic (IsBlank Framed)
open Regex (CharSet Cursor)

variable {source : Source} {index : Nat} {tree : Tree}

theorem groupText?_zero_tokenOf {pattern : Pattern} {text rest : List Char}
    {spans : List (Nat × Span)}
    : groupText? 0 (pattern.tokenOf index text rest spans) = some (String.ofList text) := by
  simp [groupText?, Pattern.tokenOf, Value.groups?, Groups.get?, Pattern.groups]

/-- The second group of a pattern is the text of its only capture, whose span is recorded. -/
theorem groupText?_one_tokenOf {pattern : Pattern}
    (hcount : pattern.matcher.groupNames.length = 2)
    {before inner after rest : List Char}
    : groupText? 1
        (pattern.tokenOf index (before ++ (inner ++ after)) rest
          [(1, ⟨before.length, before.length + inner.length⟩)])
      = some (String.ofList inner) := by
  simp [groupText?, Pattern.tokenOf, Value.groups?, Groups.get?, Pattern.groups, hcount,
    List.range_succ, Pattern.groupText?]

/-- The matcher is that of a capture between two parts that capture nothing. -/
structure Encloses (matcher : Matcher) (front inner back : List Char → Prop) : Prop where
  exists_eq
    : ∃ first body last,
        matcher = (Regex.sequence [first, .capture 1 none body, last]).matcher
        ∧ first.captures = []
        ∧ body.captures = []
        ∧ last.captures = []
        ∧ first.Spells front
        ∧ body.Spells inner
        ∧ last.Spells back

namespace Encloses

variable {pattern : Pattern} {front inner back : List Char → Prop}

/-- Besides the whole match there is one group, since no other part captures anything. -/
theorem groupNames_length {matcher : Matcher} (h : Encloses matcher front inner back)
    : matcher.groupNames.length = 2 := by
  obtain ⟨first, body, last, rfl, hfirst, hbody, hlast, -⟩ := h.exists_eq
  simp [Regex.matcher, Regex.groupNames, Regex.groupCount, Regex.sequence, Regex.captures, hfirst,
    hbody, hlast]

/-- The second group of the token is what the capture spells, by following the path of the match
through the three parts.
-/
theorem exists_of_reads (h : Encloses pattern.matcher front inner back)
    (hreads : pattern.parser.Reads source index tree)
    : tree.index = index
      ∧ ∃ before text after,
          source.slice? index tree.stop = some (before ++ (text ++ after))
          ∧ front before
          ∧ inner text
          ∧ back after
          ∧ groupText? 1 tree = some (String.ofList text) := by
  have hcount := h.groupNames_length
  obtain ⟨place, found, hplace, hmatch, rfl⟩ := Pattern.reads_iff.mp hreads
  obtain ⟨first, body, last, hmatcher, hfirst, hbody, hlast, hfront, hinner, hback⟩ := h.exists_eq
  rw [hmatcher] at hmatch
  obtain ⟨reached, hleads, rfl⟩ := Regex.leads_of_match? hmatch
  obtain ⟨opened, hopened, closing, ⟨captured, hcaptured, rfl⟩, hclosed⟩ := hleads
  obtain ⟨before, hafter, hpassed, hbefore⟩ := hfront hopened
  obtain ⟨text, hafter', hpassed', htext⟩ := hinner hcaptured
  obtain ⟨after, hafter'', hpassed'', hend⟩ := hback hclosed
  have hspans : reached.found.spans = [(1, ⟨before.length, before.length + text.length⟩)] := by
    rw [Cursor.found, Regex.spans_eq_of_leads hlast hclosed]
    simp only [Cursor.record, Regex.spans_eq_of_leads hbody hcaptured,
      Regex.spans_eq_of_leads hfirst hopened, hpassed', hpassed, Cursor.start_passed,
      Cursor.start_spans, Nat.zero_add]
  have hall : place.after = (before ++ (text ++ after)) ++ reached.place.after := by
    have hlast : captured.place.after = after ++ reached.place.after := hafter''
    rw [← Cursor.start_place place, hafter, hafter', hlast]
    simp
  have hlength : reached.found.passed = (before ++ (text ++ after)).length := by
    simp only [Cursor.record, Cursor.start_passed] at hpassed hpassed' hpassed''
    simp only [Cursor.found, List.length_append]
    omega
  have hrest
      : source.rest? index = some ((before ++ (text ++ after)) ++ reached.place.after) := by
    rw [source.rest?_of_at? hplace, hall]
  rw [hall, hlength, List.take_left, List.drop_left, hspans]
  exact ⟨rfl, before, text, after, source.slice?_of_rest? hrest, hbefore, htext, hend,
    groupText?_one_tokenOf hcount⟩

end Encloses

-----------------------------------------------------------------------------------------
-- White space, keywords and marks
-----------------------------------------------------------------------------------------

/-- Some white space. -/
def IsGap (text : List Char) : Prop :=
  text ≠ [] ∧ IsBlank text

/-- The letters of the word in any case, where case is folded: a long s is an S as well. -/
def Spelled (word : String) (text : List Char) : Prop :=
  List.Forall₂ (fun letter char => (CharSet.folded (.single letter)).contains char) word.toList
    text

/-- The keyword with white space after it, and perhaps before it as well. -/
def Keyword (leading : List Char → Prop) (word : String) (text : List Char) : Prop :=
  ∃ before letters after,
    text = before ++ (letters ++ after) ∧ leading before ∧ Spelled word letters ∧ IsGap after

theorem blank_spells : blank.Spells IsBlank :=
  Regex.Spells.zeroOrMore_oneOf .space

theorem gap_spells : gap.Spells IsGap :=
  Regex.Spells.oneOrMore_oneOf .space

theorem gapPattern_spells : gapPattern.matcher.Spells IsGap :=
  gap_spells.matcher

/-- The letters of a word and what follows them, since each letter is one of a set. -/
theorem letters_spells (word : String) {last : Regex} {holds : List Char → Prop}
    (hlast : last.Spells holds)
    : (Regex.sequence (letters word ++ [last])).Spells fun text =>
        ∃ front back, text = front ++ back ∧ Spelled word front ∧ holds back := by
  have hletters
      : letters word
        = (word.toList.map fun letter => CharSet.folded (.single letter)).map .oneOf := by
    simp [letters]
  rw [hletters]
  refine (Regex.Spells.sequence_oneOf hlast _).mono ?_
  rintro _ ⟨front, back, rfl, hfront, hback⟩
  exact ⟨front, back, rfl, List.forall₂_map_left_iff.mp hfront, hback⟩

theorem keyword_spells (word : String) {first : Regex} {leading : List Char → Prop}
    (hfirst : first.Spells leading)
    : (Regex.sequence (first :: (letters word ++ [gap]))).Spells (Keyword leading word) := by
  rw [Regex.sequence_cons (by simp)]
  refine (hfirst.append (letters_spells word gap_spells)).mono ?_
  rintro _ ⟨before, _, rfl, hbefore, letters, after, rfl, hletters, hafter⟩
  exact ⟨before, letters, after, rfl, hbefore, hletters, hafter⟩

/-- The pattern of a keyword spells it with white space around it, which may be missing in
front.
-/
theorem keywordPattern_spells (word : String)
    : (keywordPattern word).matcher.Spells (Keyword IsBlank word) :=
  (keyword_spells word blank_spells).matcher

theorem onPattern_spells : onPattern.matcher.Spells (Keyword IsGap "ON") :=
  (keyword_spells "ON" gap_spells).matcher

theorem commaPattern_spells : commaPattern.matcher.Spells (Framed ',') :=
  Arithmetic.markPattern_spells commaPattern.written (by decide)

theorem dotPattern_spells : dotPattern.matcher.Spells (· = ['.']) :=
  (Regex.Spells.literal '.').matcher

-----------------------------------------------------------------------------------------
-- Names, numbers and strings
-----------------------------------------------------------------------------------------

/-- The letters that a name may start with. -/
def nameStart : CharSet :=
  .folded (.range 'a' 'z')

/-- The characters that may follow in a name. -/
def namePart : CharSet :=
  .folded (.union (.union (.range 'a' 'z') (.range '0' '9')) (.single '_'))

/-- A letter, then letters, digits and underscores. -/
def IsName (text : List Char) : Prop :=
  ∃ first others,
    text = first :: others
    ∧ nameStart.contains first
    ∧ ∀ char ∈ others, namePart.contains char

theorem namePattern_spells : namePattern.matcher.Spells IsName := by
  refine (((Regex.Spells.oneOf nameStart).append
    (Regex.Spells.zeroOrMore_oneOf namePart)).mono ?_).matcher
  rintro _ ⟨_, others, rfl, ⟨first, hfirst, rfl⟩, hothers⟩
  exact ⟨first, others, rfl, hfirst, hothers⟩

/-- Some digits. -/
def AreDigits (text : List Char) : Prop :=
  text ≠ [] ∧ ∀ char ∈ text, CharSet.digit.contains char

/-- Digits, perhaps with a point and more digits. -/
def IsNumeral (text : List Char) : Prop :=
  ∃ whole fraction,
    text = whole ++ fraction
    ∧ AreDigits whole
    ∧ (fraction = [] ∨ ∃ digits, fraction = '.' :: digits ∧ AreDigits digits)

theorem numberPattern_spells : numberPattern.matcher.Spells IsNumeral := by
  have hdigits : (Regex.oneOrMore (.oneOf .digit)).Spells AreDigits := .oneOrMore_oneOf .digit
  refine ((hdigits.append
    (((Regex.Spells.literal '.').append hdigits).capture).zeroOrOne).mono ?_).matcher
  rintro _ ⟨whole, _, rfl, hwhole, rfl | ⟨_, digits, rfl, rfl, hfraction⟩⟩
  · exact ⟨whole, [], rfl, hwhole, Or.inl rfl⟩
  · exact ⟨whole, '.' :: digits, rfl, hwhole, Or.inr ⟨digits, rfl, hfraction⟩⟩

/-- The text with each quote doubled. -/
def doubled (content : List Char) : List Char :=
  content.flatMap fun char => if char = '\'' then ['\'', '\''] else [char]

/-- Doubled quotes are made single again, by induction on the text. -/
theorem unquoted_doubled (content : List Char) : unquoted (doubled content) = content := by
  induction content with
  | nil => rfl
  | cons char content ih =>
      by_cases hchar : char = '\''
      · subst hchar
        exact congrArg _ ih
      · have hdoubled : doubled (char :: content) = char :: doubled content := by
          simp [doubled, hchar]
        rw [hdoubled, unquoted, ih]
        intro rest heq
        exact absurd heq hchar

/-- A text in quotes, between which quotes only occur in pairs, so that it is another text with
its quotes doubled.
-/
theorem stringPattern_encloses
    : Encloses stringPattern.matcher (· = ['\'']) (fun text => ∃ content, text = doubled content)
        (· = ['\'']) := by
  refine ⟨.literal '\'', _, .literal '\'', rfl, rfl, rfl, rfl, .literal '\'', ?_,
    .literal '\''⟩
  have hpair := (Regex.Spells.literal '\'').append (Regex.Spells.literal '\'')
  refine (((Regex.Spells.oneOf _).either hpair).repeated 0 none true).mono ?_
  rintro _ ⟨parts, rfl, hparts, -⟩
  induction parts with
  | nil => exact ⟨[], rfl⟩
  | cons part parts ih =>
      obtain ⟨hpart, hothers⟩ := List.forall_mem_cons.mp hparts
      obtain ⟨content, hcontent⟩ := ih hothers
      rw [List.flatten_cons, hcontent]
      rcases hpart with ⟨char, hchar, rfl⟩ | ⟨_, _, rfl, rfl, rfl⟩
      · have hne : char ≠ '\'' := by
          intro heq
          rw [heq] at hchar
          exact absurd hchar (by decide)
        exact ⟨char :: content, by simp [doubled, hne]⟩
      · exact ⟨'\'' :: content, by simp [doubled]⟩

/-- The signs of comparisons. -/
def comparisons : List String :=
  ["<=", ">=", "<>", "=", "<", ">"]

/-- A sign with white space around it, by cases on the way that the path takes. -/
theorem comparisonPattern_encloses
    : Encloses comparisonPattern.matcher IsBlank
        (fun text => ∃ sign ∈ comparisons, text = sign.toList) IsBlank := by
  refine ⟨blank, _, blank, rfl, rfl, rfl, rfl, blank_spells, ?_, blank_spells⟩
  have hone (char : Char) := Regex.Spells.literal char
  refine (((hone '<').append (hone '=')).either (((hone '>').append (hone '=')).either
    (((hone '<').append (hone '>')).either ((hone '=').either
      ((hone '<').either (hone '>')))))).mono ?_
  rintro text (⟨_, _, rfl, rfl, rfl⟩ | ⟨_, _, rfl, rfl, rfl⟩ | ⟨_, _, rfl, rfl, rfl⟩
    | rfl | rfl | rfl)
  · exact ⟨"<=", by decide, rfl⟩
  · exact ⟨">=", by decide, rfl⟩
  · exact ⟨"<>", by decide, rfl⟩
  · exact ⟨"=", by decide, rfl⟩
  · exact ⟨"<", by decide, rfl⟩
  · exact ⟨">", by decide, rfl⟩

end TokenGrammar.Query
