import TokenGrammar.Proofs.Arithmetic.Syntax
import TokenGrammar.Proofs.Characters
import TokenGrammar.Proofs.Regex.Lexemes

/-! The patterns of numbers and names take whole literals and names: what may follow one of them
cannot be a part of it.
-/

namespace TokenGrammar.Arithmetic

open Regex (CharSet Cursor)

/-- The characters that a name starts with. -/
def nameStart : CharSet :=
  .folded (.union (.range 'a' 'z') (.single '_'))

/-- The characters that a name goes on with. -/
def namePart : CharSet :=
  .folded (.union (.union (.range 'a' 'z') (.single '_')) (.range '0' '9'))

/-- The character is no part of a literal or a name. -/
def Separates (char : Char) : Prop :=
  ¬ CharSet.digit.contains char ∧ ¬ nameStart.contains char ∧ ¬ namePart.contains char
  ∧ char ≠ '.'

/-- A literal starts with the character, and nothing else does. -/
def StartsNumeral (char : Char) : Prop :=
  CharSet.digit.contains char ∧ ¬ nameStart.contains char ∧ ¬ Unicode.isSpace char

/-- A name starts with the character, and nothing else does. -/
def StartsName (char : Char) : Prop :=
  nameStart.contains char ∧ ¬ CharSet.digit.contains char ∧ ¬ Unicode.isSpace char

instance : DecidablePred Separates :=
  fun _ => inferInstanceAs (Decidable (_ ∧ _))

instance : DecidablePred StartsNumeral :=
  fun _ => inferInstanceAs (Decidable (_ ∧ _))

instance : DecidablePred StartsName :=
  fun _ => inferInstanceAs (Decidable (_ ∧ _))

/-- The characters that may follow an atom, apart from white space. -/
def marks : List Char :=
  Level.product.followers ++ Level.product.operators

set_option maxRecDepth 10000 in
/-- White space is no part of a literal or a name, by evaluation for each character of the
class, which has no case.
-/
theorem separates_of_isSpace {char : Char} (h : Unicode.isSpace char) : Separates char := by
  have hall
      : Unicode.spaceRanges.chars.all fun space =>
          ¬ CharSet.digit.contains space
          ∧ ¬ (CharSet.union (.range 'a' 'z') (.single '_')).contains space
          ∧ ¬ (CharSet.union (.union (.range 'a' 'z') (.single '_')) (.range '0' '9')).contains
              space
          ∧ space ≠ '.' := by
    decide
  rw [Separates, nameStart, namePart, CharSet.contains_folded_of_isSpace _ h,
    CharSet.contains_folded_of_isSpace _ h]
  exact of_decide_eq_true
    (List.all_eq_true.mp hall char (Unicode.CodeRanges.mem_chars_of_cover h))

/-- What may follow an atom is no part of one, by evaluation. -/
theorem separates_of_mem_marks {char : Char} (h : char ∈ marks) : Separates char := by
  have hall : marks.all (Separates ·) := by
    decide
  exact of_decide_eq_true (List.all_eq_true.mp hall char h)

/-- A digit starts a literal and nothing else, by evaluation for all of them. -/
theorem startsNumeral_of_isDigit {char : Char} (h : char.isDigit) : StartsNumeral char := by
  have hall : Unicode.asciiDigits.all (StartsNumeral ·) := by
    decide
  exact of_decide_eq_true (List.all_eq_true.mp hall char (Unicode.mem_asciiDigits h))

/-- A letter or an underscore starts a name and nothing else, by evaluation for all of them. -/
theorem startsName_of_isAlpha {char : Char} (h : char.isAlpha ∨ char = '_')
    : StartsName char := by
  have hall : ('_' :: Unicode.asciiLetters).all (StartsName ·) := by
    decide
  have hmem : char ∈ '_' :: Unicode.asciiLetters :=
    List.mem_cons.mpr (h.symm.imp_right Unicode.mem_asciiLetters)
  exact of_decide_eq_true (List.all_eq_true.mp hall char hmem)

/-- Letters, digits and underscores are parts of names, by evaluation for all of them. -/
theorem contains_namePart_of_isAlphanum {char : Char} (h : char.isAlphanum ∨ char = '_')
    : namePart.contains char := by
  have hall : Unicode.asciiNameChars.all namePart.contains := by
    decide
  exact List.all_eq_true.mp hall char (Unicode.mem_asciiNameChars h)

/-- A literal starts with a digit, so nothing else can be read there. -/
theorem Numeral.exists_render_eq_cons (numeral : Numeral)
    : ∃ first more, numeral.render = first :: more ∧ StartsNumeral first := by
  obtain ⟨first, more, hrender, hfirst⟩ := numeral.exists_digit
  exact ⟨first, more, hrender, startsNumeral_of_isDigit hfirst⟩

section Patterns

variable {chars rest : List Char}

/-- A name is refused where nothing that it could start with comes next, like any word. -/
theorem namePattern_refuses (h : ∀ char ∈ chars.head?, ¬ nameStart.contains char)
    : namePattern.matcher.Refuses chars :=
  Regex.word_refuses h

/-- A name is taken up to what cannot be a part of it, as a word that starts with a letter or an
underscore and goes on with these and digits.
-/
theorem namePattern_takes (name : Name) (hrest : ∀ char ∈ rest.head?, Separates char)
    : namePattern.matcher.Takes name.render rest [] := by
  have hhead : nameStart.contains name.head := (startsName_of_isAlpha name.head_isStart).1
  have htail : ∀ char ∈ name.tail, namePart.contains char := by
    intro char hchar
    exact contains_namePart_of_isAlphanum (name.tail_isPart char hchar)
  have hend : ∀ char ∈ rest.head?, ¬ namePart.contains char := by
    intro char hchar
    exact (hrest char hchar).2.2.1
  exact Regex.word_takes hhead htail hend

/-- A number is refused where no digit comes next, since it has at least one in front. -/
theorem numberPattern_refuses (h : ∀ char ∈ chars.head?, ¬ CharSet.digit.contains char)
    : numberPattern.matcher.Refuses chars := by
  refine Regex.refuses_of_run fun place hplace => ?_
  exact Regex.run_oneOrMore_eq_none (by simpa [hplace] using h)

/-- Digits are taken up to what is no digit, as members of a set that none follows. -/
theorem run_digits_eq_some (digits : Digits) {cursor result : Cursor}
    {next : Regex.Continuation} (hafter : cursor.place.after = digits.chars ++ rest)
    (hrest : ∀ char ∈ rest.head?, ¬ CharSet.digit.contains char)
    (h : next (cursor.past digits.chars rest) = some result)
    : (Regex.oneOrMore (.oneOf .digit)).run cursor next = some result := by
  obtain ⟨first, others, hchars, hfirst, hothers⟩ := digits.exists_cons
  rw [hchars] at hafter h
  refine Regex.run_oneOrMore_eq_some hafter (startsNumeral_of_isDigit hfirst).1 ?_ hrest h
  intro char hchar
  exact (startsNumeral_of_isDigit (hothers char hchar)).1

/-- The pattern of a point and digits, with what is recorded of them. -/
def fractionPattern : Regex :=
  .capture 1 none (.sequence [.literal '.', .oneOrMore (.oneOf .digit)])

/-- A fraction is a point, then digits, and then recorded, by definition. -/
theorem run_fraction {cursor : Cursor} {next : Regex.Continuation}
    : fractionPattern.run cursor next
      = (Regex.literal '.').run cursor fun reached =>
          (Regex.oneOrMore (.oneOf .digit)).run reached fun reached =>
            next (reached.record 1 cursor.passed) :=
  rfl

/-- There is no fraction where no point comes next, since that is its first character. -/
theorem run_fraction_eq_none {cursor : Cursor} {next : Regex.Continuation}
    (h : ∀ char ∈ cursor.place.after.head?, char ≠ '.')
    : fractionPattern.run cursor next = none := by
  rw [run_fraction]
  exact Regex.run_literal_eq_none h

/-- A fraction is taken as a point and then all digits, and recorded from the point on. -/
theorem run_fraction_eq_some (digits : Digits) {cursor result : Cursor}
    {next : Regex.Continuation} (hafter : cursor.place.after = '.' :: (digits.chars ++ rest))
    (hrest : ∀ char ∈ rest.head?, ¬ CharSet.digit.contains char)
    (h
      : next ((cursor.past ('.' :: digits.chars) rest).record 1 cursor.passed) = some result)
    : fractionPattern.run cursor next = some result := by
  rw [run_fraction]
  refine Regex.run_literal_eq_some hafter (run_digits_eq_some digits Cursor.past_after hrest ?_)
  rw [Cursor.past_past]
  exact h

/-- Digits, perhaps with a fraction. -/
def numberRegex : Regex :=
  .append (.oneOrMore (.oneOf .digit)) (.zeroOrOne fractionPattern)

/-- A number is digits, and then either a fraction or nothing more, by definition. -/
theorem run_number {cursor : Cursor} {next : Regex.Continuation}
    : numberRegex.run cursor next
      = (Regex.oneOrMore (.oneOf .digit)).run cursor fun reached =>
          (fractionPattern.run reached next).orElse fun _ => next reached :=
  rfl

/-- A literal is taken up to what cannot be a part of it, by cases on whether it has a fraction.
-/
theorem numberPattern_takes (numeral : Numeral) (hrest : ∀ char ∈ rest.head?, Separates char)
    : ∃ spans, numberPattern.matcher.Takes numeral.render rest spans := by
  have hend : ∀ char ∈ rest.head?, ¬ CharSet.digit.contains char := by
    intro char hchar
    exact (hrest char hchar).1
  rcases numeral with ⟨whole, fraction⟩
  cases fraction with
  | none =>
      refine ⟨[], Regex.takes_of_run fun place hplace => ?_⟩
      have hafter : (Cursor.start place).place.after = whole.chars ++ rest := by
        simpa [Numeral.render] using hplace
      have hpoint : ∀ char ∈ rest.head?, char ≠ '.' := by
        intro char hchar
        exact (hrest char hchar).2.2.2
      refine ⟨(Cursor.start place).past whole.chars rest, ?_, by simp [Numeral.render], rfl⟩
      refine run_number.trans (run_digits_eq_some whole hafter hend ?_)
      rw [run_fraction_eq_none hpoint]
      rfl
  | some digits =>
      have hpoint : ¬ CharSet.digit.contains '.' := by
        decide
      refine ⟨[(1, ⟨whole.chars.length, whole.chars.length + (digits.chars.length + 1)⟩)],
        Regex.takes_of_run fun place hplace => ?_⟩
      have hafter
          : (Cursor.start place).place.after
            = whole.chars ++ '.' :: (digits.chars ++ rest) := by
        simpa [Numeral.render] using hplace
      refine ⟨(((Cursor.start place).past whole.chars ('.' :: (digits.chars ++ rest))).past
        ('.' :: digits.chars) rest).record 1 whole.chars.length, ?_, ?_, ?_⟩
      · refine run_number.trans (run_digits_eq_some whole hafter (by simpa using hpoint) ?_)
        rw [run_fraction_eq_some digits Cursor.past_after hend rfl]
        simp
      · simp [Cursor.record, Numeral.render]
      · simp [Cursor.record]

end Patterns

end TokenGrammar.Arithmetic
