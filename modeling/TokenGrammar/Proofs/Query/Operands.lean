import TokenGrammar.Proofs.Query.Lexemes

/-! The patterns of strings and of the signs between operands take as much as they can: a string
goes up to a quote that no other quote follows, and longer signs come before shorter ones.
-/

namespace TokenGrammar.Query

open Arithmetic (Blank IsBlank)
open Regex (CharSet Cursor)

-----------------------------------------------------------------------------------------
-- Pairs of characters
-----------------------------------------------------------------------------------------

section Pairs

variable {first second : Char} {cursor result : Cursor} {next : Regex.Continuation}
  {chars : List Char}

/-- Two characters, one after the other. -/
def pair (first second : Char) : Regex :=
  .sequence [.literal first, .literal second]

theorem run_pair
    : (pair first second).run cursor next
      = (Regex.literal first).run cursor fun reached =>
          (Regex.literal second).run reached next :=
  rfl

/-- Two characters are taken one after the other. -/
theorem run_pair_eq_some (hafter : cursor.place.after = first :: second :: chars)
    (h : next (cursor.past [first, second] chars) = some result)
    : (pair first second).run cursor next = some result := by
  rw [run_pair]
  refine Regex.run_literal_eq_some hafter (Regex.run_literal_eq_some Cursor.past_after ?_)
  rw [Cursor.past_past]
  exact h

/-- A pair fails if its first character does. -/
theorem run_pair_eq_none_of_first {char : Char} (hafter : cursor.place.after = char :: chars)
    (hchar : char ≠ first)
    : (pair first second).run cursor next = none := by
  rw [run_pair]
  exact Regex.run_literal_eq_none (by simpa [hafter] using hchar)

/-- A pair fails if its second character does, which is only tried behind the first one. -/
theorem run_pair_eq_none_of_second (hafter : cursor.place.after = first :: chars)
    (hchars : ∀ char ∈ chars.head?, char ≠ second)
    : (pair first second).run cursor next = none := by
  rw [run_pair, Regex.literal, Regex.run_oneOf_cons hafter,
    if_pos (CharSet.contains_single_iff.mpr rfl)]
  exact Regex.run_literal_eq_none hchars

end Pairs

-----------------------------------------------------------------------------------------
-- Strings
-----------------------------------------------------------------------------------------

section Strings

variable {cursor result : Cursor} {next : Regex.Continuation} {chars rest : List Char}

/-- A character of a string, or a pair of quotes. -/
def quotedCharacter : Regex :=
  .either (.oneOf (.complement (.single '\''))) (.sequence [.literal '\'', .literal '\''])

/-- A pair of quotes is taken as the second way to match a quoted character, since the first one
fails at a quote.
-/
theorem run_quotedCharacter_quotes (hafter : cursor.place.after = '\'' :: '\'' :: chars)
    (h : next (cursor.past ['\'', '\''] chars) = some result)
    : quotedCharacter.run cursor next = some result := by
  refine Regex.run_either_second ?_ (run_pair_eq_some hafter h)
  rw [Regex.run_oneOf_cons hafter, if_neg (by decide)]

/-- Any other character is taken as it is, if what is left matches then. -/
theorem run_quotedCharacter_other {char : Char} (hafter : cursor.place.after = char :: chars)
    (hchar : char ≠ '\'') (h : next (cursor.past [char] chars) = some result)
    : quotedCharacter.run cursor next = some result := by
  have hcontains : (CharSet.complement (.single '\'')).contains char := by
    simpa [CharSet.contains] using mt CharSet.contains_single_iff.mp hchar
  refine Regex.run_either_first ?_
  rw [Regex.run_oneOf_cons hafter, if_pos hcontains, h]

/-- A closing quote ends what is quoted, if no other quote follows it, because it is no pair of
quotes then.
-/
theorem run_quotedCharacter_closing (hafter : cursor.place.after = '\'' :: rest)
    (hrest : ∀ char ∈ rest.head?, char ≠ '\'')
    : quotedCharacter.run cursor next = none := by
  refine Regex.run_either_eq_none ?_ (run_pair_eq_none_of_second hafter hrest)
  rw [Regex.run_oneOf_cons hafter, if_neg (by decide)]

/-- The characters of a string are taken up to the closing quote, by induction on them. -/
theorem run_quoted_eq_some {content left : List Char}
    (hafter : cursor.place.after = doubled content ++ '\'' :: rest)
    (hrest : ∀ char ∈ rest.head?, char ≠ '\'')
    (hleft : content.length ≤ left.length)
    (h : next (cursor.past (doubled content) ('\'' :: rest)) = some result)
    : Regex.anyNumber quotedCharacter.runAt true left none cursor next = some result := by
  induction content generalizing cursor left with
  | nil =>
      have hstay : cursor.past (doubled []) ('\'' :: rest) = cursor := by
        have hchars : cursor.place.after = '\'' :: rest := hafter
        rw [← hchars]
        exact Cursor.past_nil
      rw [hstay] at h
      cases left with
      | nil => exact h
      | cons char left =>
          rw [Regex.anyNumber_cons, run_quotedCharacter_closing hafter hrest]
          exact h
  | cons char content ih =>
      obtain ⟨first, left, rfl⟩ := List.exists_cons_of_length_pos
        (Nat.lt_of_lt_of_le (Nat.succ_pos _) hleft)
      have hshorter : content.length ≤ left.length := Nat.le_of_succ_le_succ hleft
      rw [Regex.anyNumber_cons]
      by_cases hchar : char = '\''
      · subst hchar
        have hquote
            : cursor.place.after = '\'' :: '\'' :: (doubled content ++ '\'' :: rest) :=
          hafter
        refine Regex.orElse_eq_some (run_quotedCharacter_quotes hquote ?_)
        refine ih Cursor.past_after hshorter ?_
        rw [Cursor.past_past]
        exact h
      · have hdoubled : doubled (char :: content) = char :: doubled content := by
          simp [doubled, hchar]
        rw [hdoubled] at hafter h
        refine Regex.orElse_eq_some (run_quotedCharacter_other hafter hchar ?_)
        exact ih Cursor.past_after hshorter (by rwa [Cursor.past_past])

/-- A text with its quotes doubled is no shorter, by induction on it. -/
theorem length_le_length_doubled (content : List Char)
    : content.length ≤ (doubled content).length := by
  induction content with
  | nil => exact Nat.le_refl _
  | cons char content ih =>
      have hcons : doubled (char :: content)
          = (if char = '\'' then ['\'', '\''] else [char]) ++ doubled content :=
        rfl
      rw [hcons, List.length_append, List.length_cons]
      split <;> simp <;> omega

/-- A string is taken up to its closing quote, and its content is recorded with the quotes still
doubled.
-/
theorem stringPattern_takes (content : List Char) (hrest : ∀ char ∈ rest.head?, char ≠ '\'')
    : stringPattern.matcher.Takes ('\'' :: (doubled content ++ ['\''])) rest
        [(1, ⟨1, 1 + (doubled content).length⟩)] := by
  refine Regex.takes_of_run fun place hplace => ?_
  have hstart
      : (Cursor.start place).place.after = '\'' :: (doubled content ++ '\'' :: rest) := by
    simpa using hplace
  refine ⟨((((Cursor.start place).past ['\''] (doubled content ++ '\'' :: rest)).past
    (doubled content) ('\'' :: rest)).record 1 1).past ['\''] rest, ?_, ?_, ?_⟩
  · change (Regex.literal '\'').run (.start place)
        (fun reached =>
          Regex.anyNumber quotedCharacter.runAt true reached.place.after none reached fun inner =>
            (Regex.literal '\'').run (inner.record 1 reached.passed) some)
      = some _
    refine Regex.run_literal_eq_some hstart ?_
    refine run_quoted_eq_some Cursor.past_after hrest ?_ (Regex.run_literal_eq_some rfl rfl)
    have hlength := length_le_length_doubled content
    simp only [Cursor.past_after, List.length_append]
    omega
  · simp [Cursor.record]
    omega
  · simp [Cursor.record]

end Strings

-----------------------------------------------------------------------------------------
-- Comparisons
-----------------------------------------------------------------------------------------

section Comparisons

variable {cursor result : Cursor} {next : Regex.Continuation} {chars rest : List Char}

/-- All signs of comparisons, of which longer ones come first. -/
def signs : Regex :=
  .choice (pair '<' '=') [pair '>' '=', pair '<' '>', .literal '=', .literal '<', .literal '>']

/-- A sign is taken as a whole, and no more than it, by cases on the sign: longer ones that
start like it fail.
-/
theorem run_signs_eq_some {sign : String} (hsign : sign ∈ comparisons)
    (hafter : cursor.place.after = sign.toList ++ chars)
    (hchars : ∀ char ∈ chars.head?, char ≠ '=' ∧ char ≠ '>')
    (h : next (cursor.past sign.toList chars) = some result)
    : signs.run cursor next = some result := by
  have hequals : ∀ char ∈ chars.head?, char ≠ '=' := fun char hchar => (hchars char hchar).1
  have hgreater : ∀ char ∈ chars.head?, char ≠ '>' := fun char hchar => (hchars char hchar).2
  simp only [comparisons, List.mem_cons, List.not_mem_nil, or_false] at hsign
  rcases hsign with rfl | rfl | rfl | rfl | rfl | rfl
  · exact Regex.run_either_first (run_pair_eq_some hafter h)
  · refine Regex.run_either_second (run_pair_eq_none_of_first hafter (by decide)) ?_
    exact Regex.run_either_first (run_pair_eq_some hafter h)
  · have hother : ∀ char ∈ ('>' :: chars).head?, char ≠ '=' := by
      simp
    refine Regex.run_either_second (run_pair_eq_none_of_second hafter hother) ?_
    refine Regex.run_either_second (run_pair_eq_none_of_first hafter (by decide)) ?_
    exact Regex.run_either_first (run_pair_eq_some hafter h)
  · refine Regex.run_either_second (run_pair_eq_none_of_first hafter (by decide)) ?_
    refine Regex.run_either_second (run_pair_eq_none_of_first hafter (by decide)) ?_
    refine Regex.run_either_second (run_pair_eq_none_of_first hafter (by decide)) ?_
    exact Regex.run_either_first (Regex.run_literal_eq_some hafter h)
  · refine Regex.run_either_second (run_pair_eq_none_of_second hafter hequals) ?_
    refine Regex.run_either_second (run_pair_eq_none_of_first hafter (by decide)) ?_
    refine Regex.run_either_second (run_pair_eq_none_of_second hafter hgreater) ?_
    refine Regex.run_either_second (Regex.run_literal_eq_none (by simp [hafter])) ?_
    exact Regex.run_either_first (Regex.run_literal_eq_some hafter h)
  · refine Regex.run_either_second (run_pair_eq_none_of_first hafter (by decide)) ?_
    refine Regex.run_either_second (run_pair_eq_none_of_second hafter hequals) ?_
    refine Regex.run_either_second (run_pair_eq_none_of_first hafter (by decide)) ?_
    refine Regex.run_either_second (Regex.run_literal_eq_none (by simp [hafter])) ?_
    refine Regex.run_either_second (Regex.run_literal_eq_none (by simp [hafter])) ?_
    exact Regex.run_literal_eq_some hafter h

/-- Neither white space nor what starts an operand goes on with a sign, by cases on whether
there is white space.
-/
theorem ne_signs_of_blank (gap : Blank) {first : Char} {more : List Char}
    (hfirst : StartsOperand first)
    : ∀ char ∈ (gap.chars ++ first :: more).head?, char ≠ '=' ∧ char ≠ '>' := by
  rcases gap with ⟨_ | ⟨space, others⟩, hgap⟩
  · intro char hchar
    obtain rfl := Option.some.inj hchar
    exact hfirst.2
  · have hspace : Unicode.isSpace space := hgap space (List.mem_cons_self ..)
    intro char hchar
    obtain rfl := Option.some.inj hchar
    constructor
    · rintro rfl
      contradiction
    · rintro rfl
      contradiction

/-- A sign is taken with all white space around it, and recorded behind the white space in
front.
-/
theorem comparisonPattern_takes (comparison : Comparison) (before after : Blank)
    (hrest : ∃ first more, rest = first :: more ∧ StartsOperand first)
    : comparisonPattern.matcher.Takes
        (before.chars ++ (comparison.sign.toList ++ after.chars)) rest
        [(1, ⟨before.chars.length, before.chars.length + comparison.sign.toList.length⟩)] := by
  refine Regex.takes_of_run fun place hplace => ?_
  have hsign := comparison.mem_comparisons
  obtain ⟨first, more, rfl, hfirst⟩ := hrest
  have hstart
      : (Cursor.start place).place.after
        = before.chars ++ (comparison.sign.toList ++ (after.chars ++ first :: more)) := by
    simpa using hplace
  refine ⟨((((Cursor.start place).past before.chars
    (comparison.sign.toList ++ (after.chars ++ first :: more))).past comparison.sign.toList
      (after.chars ++ first :: more)).record 1 before.chars.length).past after.chars
        (first :: more), ?_, ?_, ?_⟩
  · change blank.run (.start place)
        (fun reached =>
          signs.run reached fun inner => blank.run (inner.record 1 reached.passed) some)
      = some _
    refine run_blank_eq_some hstart before.isBlank (isTrimmed_comparison hsign) ?_
    refine run_signs_eq_some hsign Cursor.past_after (ne_signs_of_blank after hfirst) ?_
    refine run_blank_eq_some Cursor.past_after after.isBlank
      (Arithmetic.isTrimmed_cons hfirst.1) ?_
    simp
  · simp [Cursor.record, Nat.add_assoc]
  · simp [Cursor.record]

end Comparisons

end TokenGrammar.Query
