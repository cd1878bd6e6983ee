import TokenGrammar.Proofs.Query.Lexemes

/-! The patterns of queries refuse what starts differently. Behind white space, the first visible
character tells.
-/

namespace TokenGrammar.Query

open Arithmetic (IsBlank IsTrimmed)
open Regex (CharSet)

variable {chars rest text gap letters : List Char} {word : String} {letter initial : Char}

-----------------------------------------------------------------------------------------
-- Visible characters
-----------------------------------------------------------------------------------------

/-- The first character that is no white space, if there is one. -/
def visible? (chars : List Char) : Option Char :=
  (chars.dropWhile Unicode.isSpace).head?

/-- Behind white space, the text shows such a character. -/
def Shows (holds : Char → Prop) (text : List Char) : Prop :=
  ∃ before char after,
    text = before ++ char :: after ∧ IsBlank before ∧ ¬ Unicode.isSpace char ∧ holds char

/-- A visible character behind white space is the first one, since dropping the white space
stops at it.
-/
theorem visible?_append (hgap : IsBlank gap) {char : Char} (hchar : ¬ Unicode.isSpace char)
    : visible? (gap ++ char :: rest) = some char := by
  rw [visible?, Arithmetic.dropWhile_isSpace_append hgap (Arithmetic.isTrimmed_cons hchar)]
  rfl

theorem visible?_of_isBlank (h : IsBlank chars) : visible? chars = none := by
  have hdrop : chars.dropWhile Unicode.isSpace = [] := List.dropWhile_eq_nil_iff.mpr h
  rw [visible?, hdrop]
  rfl

/-- A pattern refuses what does not show any of the characters that its texts show, because the
visible character of a text that it spells is that of all the characters.
-/
theorem refuses_of_shows {holds : Char → Prop} {pattern : Pattern} {form : List Char → Prop}
    (h : pattern.matcher.Spells form) (hshows : ∀ text, form text → Shows holds text)
    (hchars : ∀ char ∈ visible? chars, ¬ holds char)
    : pattern.matcher.Refuses chars := by
  refine Pattern.refuses_of_spells h fun text rest heq htext => ?_
  obtain ⟨before, char, after, rfl, hbefore, hvisible, hchar⟩ := hshows text htext
  refine hchars char ?_ hchar
  rw [heq, List.append_assoc, List.cons_append, visible?_append hbefore hvisible]
  rfl

/-- Of white space and a keyword behind it, the first letter is what is visible, and in upper
case it is that of the word.
-/
theorem Spelling.exists_visible (spelling : Spelling word) (hword : word ∈ keywords)
    (hletters : word.toList = letter :: letters) (hgap : IsBlank gap)
    : ∃ first,
        visible? (gap ++ (spelling.chars ++ rest)) = some first
        ∧ first.isAlpha
        ∧ first.toUpper = letter := by
  obtain ⟨first, others, hchars, halpha⟩ := spelling.exists_cons hword
  have hupper := spelling.toUpper_eq
  rw [hchars, hletters, List.map_cons] at hupper
  refine ⟨first, ?_, halpha, (List.cons.inj hupper).1⟩
  rw [hchars]
  exact visible?_append hgap (startsName_of_isAlpha halpha).2.2.1

-----------------------------------------------------------------------------------------
-- Keywords
-----------------------------------------------------------------------------------------

/-- The letters that tell the keywords apart where one of several patterns may match. -/
def initials : List Char :=
  ['J', 'W']

/-- What the characters show, if anything, is not the letter in any case. -/
def Lacks (letter : Char) (chars : List Char) : Prop :=
  ∀ char ∈ visible? chars, ¬ (CharSet.folded (.single letter)).contains char

/-- White space lacks every letter, because nothing is visible in it. -/
theorem lacks_of_isBlank (h : IsBlank chars) : Lacks letter chars := by
  simp [Lacks, visible?_of_isBlank h]

/-- What is taken for an initial letter is no white space: case folding leaves white space as it
is, so it would be the letter itself.
-/
theorem not_isSpace_of_folded {char : Char} (hinitial : initial ∈ initials)
    (hchar : (CharSet.folded (.single initial)).contains char)
    : ¬ Unicode.isSpace char := by
  have hall : initials.all fun letter => !Unicode.isSpace letter := by
    decide
  intro hspace
  rw [CharSet.contains_folded_of_isSpace _ hspace, CharSet.contains_single_iff] at hchar
  subst hchar
  have hnot := List.all_eq_true.mp hall char hinitial
  simp [hspace] at hnot

/-- One initial letter, in any case, is not taken for another one, by evaluation for all
letters.
-/
theorem not_folded_contains_of_ne {char : Char} (hinitial : initial ∈ initials)
    (halpha : char.isAlpha) (hupper : char.toUpper ∈ initials) (hne : char.toUpper ≠ initial)
    : ¬ (CharSet.folded (.single initial)).contains char := by
  have hall
      : Unicode.asciiLetters.all fun other =>
          other.toUpper ∉ initials
          ∨ initials.all fun letter =>
              other.toUpper = letter ∨ ¬ (CharSet.folded (.single letter)).contains other := by
    decide +kernel
  have hothers := of_decide_eq_true
    (List.all_eq_true.mp hall char (Unicode.mem_asciiLetters halpha))
  have hinitials := List.all_eq_true.mp (hothers.resolve_left (not_not_intro hupper)) initial
    hinitial
  exact (of_decide_eq_true hinitials).resolve_left hne

/-- A keyword does not show the initial letter of another one, since its own first letter is
what is visible.
-/
theorem Spelling.lacks (spelling : Spelling word) (hword : word ∈ keywords)
    (hletters : word.toList = letter :: letters) (hletter : letter ∈ initials)
    (hinitial : initial ∈ initials) (hne : letter ≠ initial) (hgap : IsBlank gap)
    : Lacks initial (gap ++ (spelling.chars ++ rest)) := by
  obtain ⟨first, hvisible, halpha, hupper⟩ := spelling.exists_visible hword hletters hgap
  intro char hchar
  obtain rfl := Option.some.inj (hvisible.symm.trans hchar)
  subst hupper
  exact not_folded_contains_of_ne hinitial halpha hletter hne

/-- A spelled word shows its initial letter, which is the first of the letters that are related
to those of the word.
-/
theorem shows_spelled (hword : word.toList = initial :: letters) (hinitial : initial ∈ initials)
    {before spelled after : List Char} (hbefore : IsBlank before)
    (hspelled : Spelled word spelled)
    : Shows (fun char => (CharSet.folded (.single initial)).contains char)
        (before ++ (spelled ++ after)) := by
  unfold Spelled at hspelled
  rw [hword] at hspelled
  cases hspelled with
  | @cons _ char _ others hchar _ =>
      exact ⟨before, char, others ++ after, rfl, hbefore, not_isSpace_of_folded hinitial hchar,
        hchar⟩

/-- The pattern of a keyword refuses what lacks its initial letter, because all the texts that
it spells show it.
-/
theorem keywordPattern_refuses (hword : word.toList = initial :: letters)
    (hinitial : initial ∈ initials) (hchars : Lacks initial chars)
    : (keywordPattern word).matcher.Refuses chars := by
  refine refuses_of_shows (keywordPattern_spells word) ?_ hchars
  rintro _ ⟨before, spelled, after, rfl, hbefore, hspelled, -⟩
  exact shows_spelled hword hinitial hbefore hspelled

/-- The keyword of a join is refused where its letter is lacking, as a case of any keyword. -/
theorem joinPattern_refuses (hchars : Lacks 'J' chars)
    : joinPattern.matcher.Refuses chars :=
  have hword : "JOIN".toList = 'J' :: ['O', 'I', 'N'] := rfl
  keywordPattern_refuses hword (by decide) hchars

/-- The keyword of a filter is refused where its letter is lacking, in the same way. -/
theorem wherePattern_refuses (hchars : Lacks 'W' chars)
    : wherePattern.matcher.Refuses chars :=
  have hword : "WHERE".toList = 'W' :: ['H', 'E', 'R', 'E'] := rfl
  keywordPattern_refuses hword (by decide) hchars

/-- The keyword is not seen ahead where its letter is lacking: what its pattern spells is the
word with white space in front, which shows that letter.
-/
theorem whereAheadPattern_refuses (hchars : Lacks 'W' chars)
    : whereAheadPattern.matcher.Refuses chars := by
  have hspells
      : whereAheadPattern.matcher.Spells fun text =>
          ∃ before rest,
            text = before ++ rest
            ∧ IsBlank before
            ∧ ∃ spelled after,
                rest = spelled ++ after ∧ Spelled "WHERE" spelled ∧ after = [] :=
    (blank_spells.append (letters_spells "WHERE" (.test .wordBoundary))).matcher
  refine refuses_of_shows hspells ?_ hchars
  rintro _ ⟨before, _, rfl, hbefore, spelled, after, rfl, hspelled, -⟩
  exact shows_spelled rfl (by decide) hbefore hspelled

-----------------------------------------------------------------------------------------
-- Marks, names and numbers
-----------------------------------------------------------------------------------------

/-- The pattern of a comma refuses what does not show one, since it spells a comma framed by
white space.
-/
theorem commaPattern_refuses (hchars : ∀ char ∈ visible? chars, char ≠ ',')
    : commaPattern.matcher.Refuses chars := by
  have hshows (text : List Char) (htext : Arithmetic.Framed ',' text)
      : Shows (· = ',') text := by
    obtain ⟨before, after, rfl, hbefore, -⟩ := htext
    exact ⟨before, ',', after, rfl, hbefore, by decide, rfl⟩
  exact refuses_of_shows commaPattern_spells hshows hchars

/-- White space is refused where none comes next, because what its pattern spells starts with
some.
-/
theorem gapPattern_refuses (hchars : IsTrimmed chars)
    : gapPattern.matcher.Refuses chars := by
  refine Pattern.refuses_of_spells gapPattern_spells fun text rest heq htext => ?_
  obtain ⟨space, others, rfl⟩ := List.exists_cons_of_ne_nil htext.1
  exact hchars space (by simp [heq]) (htext.2 space (List.mem_cons_self ..))

/-- A name is refused where no letter comes next, because all that its pattern spells starts
with one.
-/
theorem namePattern_refuses (hchars : ∀ char ∈ chars.head?, ¬ nameStart.contains char)
    : namePattern.matcher.Refuses chars := by
  refine Pattern.refuses_of_spells namePattern_spells fun text rest heq htext => ?_
  obtain ⟨first, others, rfl, hfirst, -⟩ := htext
  exact hchars first (by simp [heq]) hfirst

/-- A number is refused where no digit comes next, as it is in arithmetic, whose pattern is the
same.
-/
theorem numberPattern_refuses (hchars : ∀ char ∈ chars.head?, ¬ CharSet.digit.contains char)
    : numberPattern.matcher.Refuses chars :=
  Arithmetic.numberPattern_refuses hchars

end TokenGrammar.Query
