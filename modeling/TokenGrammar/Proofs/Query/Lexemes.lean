import TokenGrammar.Proofs.Query.Characters

/-! The patterns of queries take whole keywords, marks and names, with all white space around
keywords and commas, if what follows cannot be a part of them.
-/

namespace TokenGrammar.Query

open Arithmetic (IsBlank IsTrimmed)
open Regex (CharSet Cursor)

-----------------------------------------------------------------------------------------
-- Keywords and white space
-----------------------------------------------------------------------------------------

/-- The keywords of queries. -/
def keywords : List String :=
  ["SELECT", "FROM", "JOIN", "ON", "WHERE"]

/-- Keywords are written in upper case, by evaluation for all of them. -/
theorem isUpper_of_mem_keywords {word : String} (hword : word ∈ keywords)
    : ∀ letter ∈ word.toList, letter.isUpper := by
  have hall : ∀ other ∈ keywords, other.toList.all Char.isUpper := by
    decide
  exact List.all_eq_true.mp (hall word hword)

namespace Spelling

variable {word : String} {rest : List Char}

/-- The characters of a keyword are letters, since they have upper case letters as their upper
case.
-/
theorem isAlpha_of_mem (spelling : Spelling word) (hword : word ∈ keywords) {char : Char}
    (hchar : char ∈ spelling.chars)
    : char.isAlpha := by
  refine isAlpha_of_toUpper (isUpper_of_mem_keywords hword _ ?_)
  rw [← spelling.toUpper_eq]
  exact List.mem_map_of_mem hchar

/-- Upper and lower case are the same to a pattern, letter by letter. -/
theorem spelled (spelling : Spelling word) (hword : word ∈ keywords)
    : Spelled word spelling.chars := by
  have hupper := isUpper_of_mem_keywords hword
  rw [← spelling.toUpper_eq] at hupper
  unfold Spelled
  rw [← spelling.toUpper_eq, List.forall₂_map_left_iff, List.forall₂_same]
  intro char hchar
  exact folded_contains_of_toUpper rfl (hupper _ (List.mem_map_of_mem hchar))

/-- A keyword is not empty, so that it starts with a letter. -/
theorem exists_cons (spelling : Spelling word) (hword : word ∈ keywords)
    : ∃ first others, spelling.chars = first :: others ∧ first.isAlpha := by
  have hne : ∀ other ∈ keywords, other.toList ≠ [] := by
    decide
  have hchars : spelling.chars ≠ [] := by
    intro hnil
    have htoUpper := spelling.toUpper_eq
    rw [hnil] at htoUpper
    exact hne word hword htoUpper.symm
  obtain ⟨first, others, heq⟩ := List.exists_cons_of_ne_nil hchars
  exact ⟨first, others, heq, spelling.isAlpha_of_mem hword (by simp [heq])⟩

/-- A keyword starts with a letter, so no white space is in front of it. -/
theorem isTrimmed (spelling : Spelling word) (hword : word ∈ keywords)
    : IsTrimmed (spelling.chars ++ rest) := by
  obtain ⟨first, others, heq, halpha⟩ := spelling.exists_cons hword
  rw [heq]
  exact Arithmetic.isTrimmed_cons (startsName_of_isAlpha halpha).2.2.1

end Spelling

section Keywords

variable {word : String} {text rest : List Char} {cursor result : Cursor}
  {next : Regex.Continuation}

/-- White space is taken up to what is visible, as members of a set that none follows. -/
theorem run_gap_eq_some (hafter : cursor.place.after = text ++ rest) (htext : IsGap text)
    (hrest : IsTrimmed rest) (h : next (cursor.past text rest) = some result)
    : gap.run cursor next = some result := by
  obtain ⟨first, others, rfl⟩ := List.exists_cons_of_ne_nil htext.1
  obtain ⟨hfirst, hothers⟩ := List.forall_mem_cons.mp htext.2
  exact Regex.run_oneOrMore_eq_some hafter hfirst hothers hrest h

/-- White space that may be missing is taken up to what is visible, in the same way. -/
theorem run_blank_eq_some (hafter : cursor.place.after = text ++ rest) (htext : IsBlank text)
    (hrest : IsTrimmed rest) (h : next (cursor.past text rest) = some result)
    : blank.run cursor next = some result := by
  have hbeyond : cursor.beyond .space = cursor.past text rest :=
    Cursor.beyond_eq_past hafter htext hrest
  exact Regex.run_zeroOrMore_eq_some (hbeyond ▸ h)

/-- The letters of a word are taken one by one, by induction on them. -/
theorem run_letters_eq_some {last : Regex} (hafter : cursor.place.after = text ++ rest)
    (htext : Spelled word text) (h : last.run (cursor.past text rest) next = some result)
    : (Regex.sequence (letters word ++ [last])).run cursor next = some result := by
  unfold Spelled at htext
  unfold letters
  generalize word.toList = letters at htext
  induction htext generalizing cursor with
  | nil =>
      rw [List.nil_append] at hafter
      rwa [← hafter, Cursor.past_nil] at h
  | @cons letter char letters text hchar _ ih =>
      rw [List.map_cons, List.cons_append, Regex.sequence_cons (by simp),
        Regex.run_append, Regex.run_oneOf_cons hafter, if_pos hchar]
      exact ih Cursor.past_after (by rwa [Cursor.past_past])

variable {before after : List Char}

/-- A keyword with white space behind it is taken letter by letter if what is in front of it is
taken up to its first letter.
-/
theorem keyword_takes {first : Regex} (hword : word ∈ keywords) (spelling : Spelling word)
    (hfirst
      : ∀ {cursor : Cursor} {next : Cursor → Option Cursor} {result : Cursor},
          cursor.place.after = before ++ (spelling.chars ++ (after ++ rest))
          → next (cursor.past before (spelling.chars ++ (after ++ rest))) = some result
          → first.run cursor next = some result)
    (hafter : IsGap after) (hrest : IsTrimmed rest)
    : (Regex.sequence (first :: (letters word ++ [gap]))).matcher.Takes
        (before ++ (spelling.chars ++ after)) rest [] := by
  refine Regex.takes_of_run fun place hplace => ?_
  have hstart
      : (Cursor.start place).place.after = before ++ (spelling.chars ++ (after ++ rest)) := by
    simpa using hplace
  refine ⟨(Cursor.start place).past (before ++ (spelling.chars ++ after)) rest, ?_, by simp,
    rfl⟩
  rw [Regex.sequence_cons (by simp), Regex.run_append]
  refine hfirst hstart ?_
  refine run_letters_eq_some Cursor.past_after (spelling.spelled hword) ?_
  refine run_gap_eq_some Cursor.past_after hafter hrest ?_
  simp [Cursor.past_past]

/-- The pattern of a keyword takes it with all white space around it, which may be missing in
front.
-/
theorem keywordPattern_takes (hword : word ∈ keywords) (spelling : Spelling word)
    (hbefore : IsBlank before) (hafter : IsGap after) (hrest : IsTrimmed rest)
    : (keywordPattern word).matcher.Takes (before ++ (spelling.chars ++ after)) rest
        [] :=
  keyword_takes hword spelling
    (fun hcursor => run_blank_eq_some hcursor hbefore (spelling.isTrimmed hword)) hafter hrest

/-- The pattern of this keyword takes it in the same way, with white space on both sides. -/
theorem onPattern_takes (spelling : Spelling "ON") (hbefore : IsGap before)
    (hafter : IsGap after) (hrest : IsTrimmed rest)
    : onPattern.matcher.Takes (before ++ (spelling.chars ++ after)) rest [] :=
  keyword_takes (by decide) spelling
    (fun hcursor => run_gap_eq_some hcursor hbefore (spelling.isTrimmed (by decide))) hafter
    hrest

/-- A keyword ends at a word boundary, since its last letter is a part of a word and what is behind
it is not.
-/
theorem wordBoundary_holds_past (hword : word ∈ keywords) (spelling : Spelling word)
    (hrest : Ended rest)
    : Regex.Assertion.wordBoundary.holds (cursor.past spelling.chars rest).place = true := by
  have hlast
      : ∃ last, spelling.chars.getLast? = some last ∧ Regex.inWord (some last) = true := by
    obtain ⟨first, others, heq, -⟩ := spelling.exists_cons hword
    have hne : spelling.chars ≠ [] := by
      simp [heq]
    refine ⟨_, List.getLast?_eq_some_getLast hne, ?_⟩
    exact (startsName_of_isAlpha
      (spelling.isAlpha_of_mem hword (List.getLast_mem hne))).2.1
  obtain ⟨last, hlast, hinside⟩ := hlast
  have houtside : Regex.inWord rest.head? = false := by
    cases rest with
    | nil => rfl
    | cons char rest => simpa [Regex.inWord] using (hrest char rfl).2.2.1
  simp only [Regex.Assertion.holds, Cursor.past, hlast, Option.some_or, hinside, houtside]
  rfl

/-- The keyword that is only looked ahead for is taken up to the boundary at its end, without what
separates it from what follows.
-/
theorem whereAheadPattern_takes (spelling : Spelling "WHERE") (hbefore : IsBlank before)
    (hrest : Ended rest)
    : whereAheadPattern.matcher.Takes (before ++ spelling.chars) rest [] := by
  have hkeyword : "WHERE" ∈ keywords := by
    decide
  refine Regex.takes_of_run fun place hplace => ?_
  have hstart : (Cursor.start place).place.after = before ++ (spelling.chars ++ rest) := by
    simpa using hplace
  refine ⟨(Cursor.start place).past (before ++ spelling.chars) rest, ?_, by simp, rfl⟩
  rw [List.cons_append, Regex.sequence_cons (by simp), Regex.run_append]
  refine run_blank_eq_some hstart hbefore (spelling.isTrimmed hkeyword) ?_
  refine run_letters_eq_some Cursor.past_after (spelling.spelled hkeyword) ?_
  refine (Regex.run_test (wordBoundary_holds_past hkeyword spelling hrest)).trans ?_
  rw [Cursor.past_past]

end Keywords

section Separators

variable {text rest before after : List Char}

theorem gapPattern_takes (htext : IsGap text) (hrest : IsTrimmed rest)
    : gapPattern.matcher.Takes text rest [] := by
  refine Regex.takes_of_run fun place hplace => ?_
  refine ⟨(Cursor.start place).past text rest, ?_, by simp, rfl⟩
  exact run_gap_eq_some hplace htext hrest rfl

/-- A comma is taken with all white space around it, since its pattern frames it like any mark.
-/
theorem commaPattern_takes (hbefore : IsBlank before) (hafter : IsBlank after)
    (hrest : IsTrimmed rest)
    : commaPattern.matcher.Takes (before ++ ',' :: after) rest [] :=
  (Arithmetic.markPattern_frames commaPattern.written (by decide)).takes hbefore
    (CharSet.contains_single_iff.mpr rfl) hafter hrest

/-- The dot is taken as the literal that it is, whatever follows it. -/
theorem dotPattern_takes : dotPattern.matcher.Takes ['.'] rest [] := by
  refine Regex.takes_of_run fun place hplace => ?_
  exact ⟨(Cursor.start place).past ['.'] rest, Regex.run_literal_eq_some hplace rfl, by simp, rfl⟩

end Separators

-----------------------------------------------------------------------------------------
-- Names
-----------------------------------------------------------------------------------------

/-- A name is taken up to what cannot be a part of it, as a word that starts with a letter and goes
on with letters, digits and underscores.
-/
theorem namePattern_takes {rest : List Char} (name : Name)
    (hrest : ∀ char ∈ rest.head?, ¬ namePart.contains char)
    : namePattern.matcher.Takes name.render rest [] := by
  have hhead : nameStart.contains name.head := (startsName_of_isAlpha name.head_isAlpha).1
  have htail : ∀ char ∈ name.tail, namePart.contains char := by
    intro char hchar
    exact contains_namePart_of_isAlphanum (name.tail_isPart char hchar)
  exact Regex.word_takes hhead htail hrest

end TokenGrammar.Query
