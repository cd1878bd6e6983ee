import TokenGrammar.Json.Document

/-! Strings and integers in written documents. Where two of them are written, and the texts with all
that follows are the same, they are the same themselves, and so is what follows.
-/

namespace TokenGrammar.Json

variable {rest rest' : List Char}

-----------------------------------------------------------------------------------------
-- Strings
-----------------------------------------------------------------------------------------

/-- The value of a hexadecimal digit. -/
def hexValue (digit : Char) : Nat :=
  if digit.isDigit then digit.toNat - '0'.toNat else digit.toNat - 'a'.toNat + 10

/-- The character that a letter behind a backslash stands for. -/
def unescapedLetter (letter : Char) : Char :=
  match letter with
  | 'b' => '\x08'
  | 'f' => '\x0c'
  | 'n' => '\n'
  | 'r' => '\r'
  | 't' => '\t'
  | _ => letter

/-- Reads what follows a backslash back: four digits behind a letter of their own, of which the last
two count, or one of the other letters.
-/
def escape? : List Char → Option (Char × List Char)
  | 'u' :: _ :: _ :: high :: low :: rest =>
      some (Char.ofNat (16 * hexValue high + hexValue low), rest)
  | letter :: rest => some (unescapedLetter letter, rest)
  | [] => none

/-- Reads one character of a string back, unless the string ends. -/
def unescaped? : List Char → Option (Char × List Char)
  | char :: rest =>
      if char = '"' then none else if char = '\\' then escape? rest else some (char, rest)
  | [] => none

/-- Two digits suffice for control characters, by evaluation for each of their code points. -/
theorem hexValue_hexDigit
    : ∀ code < 0x20,
        16 * hexValue (hexDigit (code / 16)) + hexValue (hexDigit (code % 16)) = code := by
  decide

/-- Each character is read back from its written form, whatever follows, by cases on the
characters that have a form of their own.
-/
theorem unescaped?_escaped (char : Char) (rest : List Char)
    : unescaped? (escaped char ++ rest) = some (char, rest) := by
  unfold escaped
  split
  case h_8 hquote hbackslash _ _ _ _ _ =>
    split
    case isTrue hcontrol =>
      have hcode := hexValue_hexDigit char.toNat hcontrol
      simp [unescaped?, escape?, hcode]
    case isFalse =>
      rw [List.singleton_append, unescaped?, if_neg hquote, if_neg hbackslash]
  all_goals rfl

/-- Two characters with the same written form are the same, since the form of each is read back.
-/
theorem escaped_append_inj {char char' : Char}
    (h : escaped char ++ rest = escaped char' ++ rest')
    : char = char' ∧ rest = rest' := by
  have hread := congrArg unescaped? h
  rw [unescaped?_escaped, unescaped?_escaped] at hread
  exact Prod.mk.inj (Option.some.inj hread)

/-- No written form of a character starts like the end of a string, at which nothing is read
back.
-/
theorem escaped_append_ne_quote (char : Char) : escaped char ++ rest ≠ '"' :: rest' := by
  intro h
  have hread := congrArg unescaped? h
  rw [unescaped?_escaped] at hread
  contradiction

/-- What is written between quotes ends at the closing one, by induction on the characters. -/
theorem escaped_flatMap_inj {chars chars' : List Char}
    (h : chars.flatMap escaped ++ '"' :: rest = chars'.flatMap escaped ++ '"' :: rest')
    : chars = chars' ∧ rest = rest' := by
  induction chars generalizing chars' with
  | nil =>
      cases chars' with
      | nil => exact ⟨rfl, List.tail_eq_of_cons_eq h⟩
      | cons char' chars' =>
          rw [List.flatMap_cons, List.append_assoc] at h
          exact absurd h.symm (escaped_append_ne_quote char')
  | cons char chars ih =>
      rw [List.flatMap_cons, List.append_assoc] at h
      cases chars' with
      | nil => exact absurd h (escaped_append_ne_quote char)
      | cons char' chars' =>
          rw [List.flatMap_cons, List.append_assoc] at h
          obtain ⟨rfl, hrest⟩ := escaped_append_inj h
          obtain ⟨rfl, rfl⟩ := ih hrest
          exact ⟨rfl, rfl⟩

/-- A string is written with its characters escaped one by one, between quotes. -/
theorem toList_quoted (content : String)
    : (quoted content).toList = '"' :: (content.toList.flatMap escaped ++ ['"']) := by
  simp [quoted]

/-- A string in quotes tells its content and where it ends, as its characters do. -/
theorem quoted_append_inj {content content' : String}
    (h : (quoted content).toList ++ rest = (quoted content').toList ++ rest')
    : content = content' ∧ rest = rest' := by
  simp only [toList_quoted, List.cons_append, List.append_assoc, List.nil_append] at h
  obtain ⟨hchars, hrest⟩ := escaped_flatMap_inj (List.tail_eq_of_cons_eq h)
  exact ⟨String.toList_inj.mp hchars, hrest⟩

-----------------------------------------------------------------------------------------
-- Integers
-----------------------------------------------------------------------------------------

/-- The character may occur in an integer. -/
def isNumeric (char : Char) : Bool :=
  char.isDigit || char == '-'

/-- The text does not go on with a character of an integer. -/
def Ends (text : List Char) : Prop :=
  text.takeWhile isNumeric = []

theorem ends_nil : Ends [] :=
  rfl

theorem ends_cons {char : Char} (h : isNumeric char = false) : Ends (char :: rest) := by
  rw [Ends, List.takeWhile_cons, h]
  rfl

/-- Reads an integer back from its sign, if it has one, and its digits. -/
def integerValue : List Char → Int
  | '-' :: digits => -(Nat.ofDigitChars 10 digits 0 : Int)
  | digits => (Nat.ofDigitChars 10 digits 0 : Int)

/-- Only digits occur in a natural number, by the library's lemma on the digits of a base. -/
theorem isDigit_of_mem_repr {number : Nat} {char : Char} (h : char ∈ number.repr.toList)
    : char.isDigit := by
  rw [Nat.toList_repr] at h
  exact Nat.isDigit_of_mem_toDigits (by decide) (by decide) h

/-- Each integer is read back from its written form, since digits tell the number that they are
written for and none of them is a sign.
-/
theorem integerValue_repr (value : Int) : integerValue value.repr.toList = value := by
  rw [Int.repr_eq_if]
  split
  case isTrue hsign =>
    have hdigits (rest : List Char) (heq : value.toNat.repr.toList = '-' :: rest) : False := by
      have hdigit : '-'.isDigit := isDigit_of_mem_repr (by rw [heq]; exact List.mem_cons_self ..)
      contradiction
    rw [integerValue, Nat.toList_repr, Nat.ofDigitChars_ten_toDigits, Int.toNat_of_nonneg hsign]
    exact hdigits
  case isFalse hsign =>
    have hchars : ("-" ++ (-value).toNat.repr).toList = '-' :: Nat.toDigits 10 (-value).toNat := by
      simp [Nat.toList_repr]
    rw [hchars, integerValue, Nat.ofDigitChars_ten_toDigits]
    omega

/-- An integer is written with a sign, if it is negative, and digits, so that no other character
occurs in it.
-/
theorem isNumeric_of_mem_repr {value : Int} {char : Char} (h : char ∈ value.repr.toList)
    : isNumeric char := by
  have hdigit {number : Nat} (hmem : char ∈ number.repr.toList) : isNumeric char := by
    simp [isNumeric, isDigit_of_mem_repr hmem]
  rw [Int.repr_eq_if] at h
  split at h
  case isTrue => exact hdigit h
  case isFalse =>
    rw [String.toList_append, List.mem_append] at h
    rcases h with hsign | hmem
    · obtain rfl : char = '-' := by simpa using hsign
      rfl
    · exact hdigit hmem

/-- An integer tells its value and where it ends, if it does not go on: on both sides, it is the
longest text of such characters, from which the value is read back.
-/
theorem integer_append_inj {value value' : Int} (hrest : Ends rest) (hrest' : Ends rest')
    (h : (toString value).toList ++ rest = (toString value').toList ++ rest')
    : value = value' ∧ rest = rest' := by
  rw [Int.toString_eq_repr, Int.toString_eq_repr] at h
  have htake := congrArg (List.takeWhile isNumeric) h
  rw [List.takeWhile_append_of_pos fun _ => isNumeric_of_mem_repr,
    List.takeWhile_append_of_pos fun _ => isNumeric_of_mem_repr, hrest, hrest', List.append_nil,
    List.append_nil] at htake
  constructor
  · rw [← integerValue_repr value, htake, integerValue_repr]
  · rw [htake] at h
    exact List.append_cancel_left h

end TokenGrammar.Json
