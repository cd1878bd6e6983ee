import TokenGrammar.Proofs.Arithmetic.Lexemes
import TokenGrammar.Proofs.Query.Syntax

/-! What the characters of queries can be a part of: names, literals, strings, keywords and the
signs of comparisons. From this, what parts of queries start with, and what may follow them.
-/

namespace TokenGrammar.Query

open Arithmetic (IsBlank IsTrimmed Numeral)
open Regex (CharSet)

-----------------------------------------------------------------------------------------
-- Classes
-----------------------------------------------------------------------------------------

/-- The character is no part of a name or a literal, and would not go on with a string. -/
def Separates (char : Char) : Prop :=
  Arithmetic.Separates char ∧ ¬ namePart.contains char ∧ ¬ CharSet.word.contains char
  ∧ char ≠ '\''

/-- The character is visible and no part of the sign of a comparison. -/
def StartsOperand (char : Char) : Prop :=
  ¬ Unicode.isSpace char ∧ char ≠ '=' ∧ char ≠ '>'

/-- The character starts a name. -/
def StartsName (char : Char) : Prop :=
  nameStart.contains char ∧ CharSet.word.contains char ∧ StartsOperand char

/-- A literal starts with the character, and no name does. -/
def StartsNumeral (char : Char) : Prop :=
  ¬ nameStart.contains char ∧ StartsOperand char

instance : DecidablePred Separates :=
  fun _ => inferInstanceAs (Decidable (_ ∧ _))

instance : DecidablePred StartsOperand :=
  fun _ => inferInstanceAs (Decidable (_ ∧ _))

instance : DecidablePred StartsName :=
  fun _ => inferInstanceAs (Decidable (_ ∧ _))

instance : DecidablePred StartsNumeral :=
  fun _ => inferInstanceAs (Decidable (_ ∧ _))

/-- What may follow an operand or a column, apart from white space. -/
def marks : List Char :=
  [',', '<', '>', '=']

set_option maxRecDepth 10000 in
/-- White space is no part of an operand or a column, by evaluation for each character of the
class, which has no case.
-/
theorem separates_of_isSpace {char : Char} (h : Unicode.isSpace char) : Separates char := by
  have hall
      : Unicode.spaceRanges.chars.all fun space =>
          ¬ (CharSet.union (.union (.range 'a' 'z') (.range '0' '9')) (.single '_')).contains
              space
          ∧ ¬ CharSet.word.contains space
          ∧ space ≠ '\'' := by
    decide +kernel
  rw [Separates, namePart, CharSet.contains_folded_of_isSpace _ h]
  exact ⟨Arithmetic.separates_of_isSpace h, of_decide_eq_true
    (List.all_eq_true.mp hall char (Unicode.CodeRanges.mem_chars_of_cover h))⟩

/-- What may follow an operand is no part of one, by evaluation. -/
theorem separates_of_mem_marks {char : Char} (h : char ∈ marks) : Separates char := by
  have hall : marks.all (Separates ·) := by
    decide
  exact of_decide_eq_true (List.all_eq_true.mp hall char h)

/-- A letter starts a name, by evaluation for all of them. -/
theorem startsName_of_isAlpha {char : Char} (h : char.isAlpha) : StartsName char := by
  have hall : Unicode.asciiLetters.all (StartsName ·) := by
    decide
  exact of_decide_eq_true (List.all_eq_true.mp hall char (Unicode.mem_asciiLetters h))

/-- A digit starts a literal and no name, by evaluation for all of them. -/
theorem startsNumeral_of_isDigit {char : Char} (h : char.isDigit) : StartsNumeral char := by
  have hall : Unicode.asciiDigits.all (StartsNumeral ·) := by
    decide
  exact of_decide_eq_true (List.all_eq_true.mp hall char (Unicode.mem_asciiDigits h))

/-- Letters, digits and underscores are parts of names, by evaluation for all of them. -/
theorem contains_namePart_of_isAlphanum {char : Char} (h : char.isAlphanum ∨ char = '_')
    : namePart.contains char := by
  have hall : Unicode.asciiNameChars.all namePart.contains := by
    decide
  exact List.all_eq_true.mp hall char (Unicode.mem_asciiNameChars h)

/-- What has an upper case letter as its upper case is a letter, by cases on whether it changes.
-/
theorem isAlpha_of_toUpper {char : Char} (h : char.toUpper.isUpper) : char.isAlpha := by
  unfold Char.toUpper at h
  split at h
  case isTrue hrange =>
    have hlower : char.isLower :=
      Bool.and_eq_true_iff.mpr ⟨decide_eq_true hrange.1, decide_eq_true hrange.2⟩
    exact Bool.or_eq_true_iff.mpr (Or.inr hlower)
  case isFalse => exact Bool.or_eq_true_iff.mpr (Or.inl h)

/-- Folding case, a letter stands for both of its cases, by evaluation for all letters. -/
theorem folded_contains_of_toUpper {letter char : Char} (h : char.toUpper = letter)
    (hletter : letter.isUpper)
    : (CharSet.folded (.single letter)).contains char := by
  have hall
      : Unicode.asciiLetters.all fun other =>
          (CharSet.folded (.single other.toUpper)).contains other := by
    decide
  subst h
  exact List.all_eq_true.mp hall char (Unicode.mem_asciiLetters (isAlpha_of_toUpper hletter))

-----------------------------------------------------------------------------------------
-- Ends of parts
-----------------------------------------------------------------------------------------

/-- The characters are at their end or go on with what no operand and no column has as a part. -/
def Ended (chars : List Char) : Prop :=
  ∀ char ∈ chars.head?, Separates char

theorem ended_nil : Ended [] := by
  simp [Ended]

theorem ended_cons_mark {mark : Char} (hmark : mark ∈ marks) (chars : List Char)
    : Ended (mark :: chars) := by
  intro char hchar
  obtain rfl := Option.some.inj hchar
  exact separates_of_mem_marks hmark

/-- White space in front of an end is an end, by cases on whether there is any. -/
theorem ended_append {gap chars : List Char} (hgap : IsBlank gap) (hchars : Ended chars)
    : Ended (gap ++ chars) := by
  cases gap with
  | nil => exact hchars
  | cons space gap =>
      intro char hchar
      obtain rfl := Option.some.inj hchar
      exact separates_of_isSpace (hgap _ (List.mem_cons_self ..))

/-- White space is an end, whatever comes behind it. -/
theorem ended_gap_append {gap : List Char} (hgap : IsGap gap) (chars : List Char)
    : Ended (gap ++ chars) := by
  obtain ⟨space, others, rfl⟩ := List.exists_cons_of_ne_nil hgap.1
  intro char hchar
  obtain rfl := Option.some.inj hchar
  exact separates_of_isSpace (hgap.2 _ (List.mem_cons_self ..))

/-- The sign of a comparison is an end, by cases on the sign. -/
theorem ended_comparison {sign : String} (hsign : sign ∈ comparisons) {chars : List Char}
    : Ended (sign.toList ++ chars) := by
  simp only [comparisons, List.mem_cons, List.not_mem_nil, or_false] at hsign
  rcases hsign with rfl | rfl | rfl | rfl | rfl | rfl <;> exact ended_cons_mark (by decide) _

theorem Ended.not_namePart {chars : List Char} (h : Ended chars)
    : ∀ char ∈ chars.head?, ¬ namePart.contains char := by
  intro char hchar
  exact (h char hchar).2.1

-----------------------------------------------------------------------------------------
-- Starts of parts
-----------------------------------------------------------------------------------------

section Starts

variable {rest : List Char}

/-- A name starts with a letter, so no white space is in front of it. -/
theorem Name.isTrimmed (name : Name) : IsTrimmed (name.render ++ rest) :=
  Arithmetic.isTrimmed_cons (startsName_of_isAlpha name.head_isAlpha).2.2.1

/-- A column starts with a name, so no white space is in front of it. -/
theorem ColumnName.isTrimmed (column : ColumnName) : IsTrimmed (column.render ++ rest) := by
  rw [ColumnName.render, List.append_assoc]
  exact column.table.isTrimmed

/-- A literal starts with a digit, so no name does there. -/
theorem exists_numeral_eq_cons (numeral : Numeral)
    : ∃ first more, numeral.render = first :: more ∧ StartsNumeral first := by
  obtain ⟨first, more, hrender, hfirst⟩ := numeral.exists_digit
  exact ⟨first, more, hrender, startsNumeral_of_isDigit hfirst⟩

/-- An operand is not empty, and nothing that it starts with goes on with a sign, by cases on
its sort.
-/
theorem Operand.exists_render_eq_cons (operand : Operand)
    : ∃ first more, operand.render = first :: more ∧ StartsOperand first := by
  cases operand with
  | column name =>
      exact ⟨name.table.head, _, rfl, (startsName_of_isAlpha name.table.head_isAlpha).2.2⟩
  | number numeral =>
      obtain ⟨first, more, hrender, hfirst⟩ := exists_numeral_eq_cons numeral
      exact ⟨first, more, hrender, hfirst.2⟩
  | string content => exact ⟨'\'', _, rfl, by decide⟩

/-- A comparison starts with an operand, so no white space is in front of it. -/
theorem Condition.isTrimmed (condition : Condition)
    : IsTrimmed (condition.render ++ rest) := by
  obtain ⟨first, more, hrender, hfirst⟩ := condition.left.exists_render_eq_cons
  rw [Condition.render, hrender]
  exact Arithmetic.isTrimmed_cons hfirst.1

/-- The signs are visible, by cases on the sign. -/
theorem isTrimmed_comparison {sign : String} (hsign : sign ∈ comparisons)
    : IsTrimmed (sign.toList ++ rest) := by
  simp only [comparisons, List.mem_cons, List.not_mem_nil, or_false] at hsign
  rcases hsign with rfl | rfl | rfl | rfl | rfl | rfl <;>
    exact Arithmetic.isTrimmed_cons (by decide)

end Starts

end TokenGrammar.Query
