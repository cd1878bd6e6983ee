import Mathlib.Data.List.Forall2
import TokenGrammar.Unicode.Lowercase

/-! Lowercasing of whole texts. What becomes of a character may depend on its surroundings, and the
text may become longer; neither happens where the result is a text of ASCII characters.
-/

namespace TokenGrammar.Unicode

variable {char other : Char} {before after chars : List Char}

-----------------------------------------------------------------------------------------
-- Characters among others
-----------------------------------------------------------------------------------------

/-- The lowercase form of a character between those before it, nearest first, and those after it. -/
def formBetween (before : List Char) (char : Char) (after : List Char) : List Char :=
  if char = 'Σ' then [if endsWord before after then 'ς' else 'σ'] else lowercaseChar char

/-- A text is lowercased character by character, each one between the others. -/
theorem lowercaseAfter_cons
    : lowercaseAfter before (char :: after)
      = formBetween before char after ++ lowercaseAfter (char :: before) after :=
  rfl

theorem lowercase_singleton (char : Char) : lowercase [char] = formBetween [] char [] :=
  List.append_nil _

/-- Only the dotted capital I becomes two characters, by cases on the character. -/
theorem length_formBetween
    : (formBetween before char after).length = if char = 'İ' then 2 else 1 := by
  unfold formBetween lowercaseChar
  split
  case isTrue hsigma => simp [hsigma]
  case isFalse => split <;> rfl

/-- A text becomes longer by one character for each dotted capital I in it, by induction on the
text, whatever precedes it.
-/
theorem length_lowercaseAfter
    : (lowercaseAfter before chars).length = chars.length + chars.count 'İ' := by
  induction chars generalizing before with
  | nil => rfl
  | cons char rest ih =>
      rw [lowercaseAfter_cons, List.length_append, length_formBetween, ih, List.length_cons]
      by_cases hdotted : char = 'İ'
      · rw [if_pos hdotted, hdotted, List.count_cons_self]
        omega
      · rw [if_neg hdotted, List.count_cons_of_ne hdotted]
        omega

/-- A text with more behind it only has the same lowercase form if that is nothing, because the
form is no shorter than the text.
-/
theorem lowercase_append_eq_self_iff (extra : List Char)
    : lowercase (chars ++ extra) = lowercase chars ↔ extra = [] := by
  constructor
  · intro h
    have hlength := congrArg List.length h
    simp only [lowercase, length_lowercaseAfter, List.length_append, List.count_append] at hlength
    exact List.length_eq_zero_iff.mp (by omega)
  · rintro rfl
    rw [List.append_nil]

-----------------------------------------------------------------------------------------
-- ASCII
-----------------------------------------------------------------------------------------

/-- The character is one of the first 128. -/
def IsAscii (char : Char) : Prop :=
  char.toNat < 128

instance : DecidablePred IsAscii :=
  fun _ => inferInstanceAs (Decidable (_ < _))

theorem IsAscii.ne (h : IsAscii char) (hother : ¬ IsAscii other) : char ≠ other := by
  rintro rfl
  exact hother h

/-- ASCII characters have ASCII characters as lowercase forms, by evaluation for each of them.
-/
theorem IsAscii.simpleLowercase (h : IsAscii char) : IsAscii (simpleLowercase char) := by
  have hall : ∀ code < 128, (Unicode.simpleLowercase (Char.ofNat code)).toNat < 128 := by
    decide +kernel
  simpa only [IsAscii, Char.ofNat_toNat] using hall char.toNat h

/-- An ASCII character has a form of one character, whatever is around it, for it is neither a
sigma nor a dotted capital I.
-/
theorem IsAscii.formBetween_eq (h : IsAscii char)
    : formBetween before char after = [Unicode.simpleLowercase char] := by
  rw [formBetween, if_neg (h.ne (by decide)), lowercaseChar, if_neg (h.ne (by decide))]

/-- A text of ASCII characters is lowercased character by character, by induction on it,
whatever precedes it.
-/
theorem lowercaseAfter_of_isAscii (h : ∀ char ∈ chars, IsAscii char)
    : lowercaseAfter before chars = chars.map simpleLowercase := by
  induction chars generalizing before with
  | nil => rfl
  | cons char rest ih =>
      obtain ⟨hchar, hrest⟩ := List.forall_mem_cons.mp h
      rw [lowercaseAfter_cons, hchar.formBetween_eq, ih hrest, List.map_cons, List.singleton_append]

/-- A whole text of ASCII characters is lowercased character by character. -/
theorem lowercase_of_isAscii (h : ∀ char ∈ chars, IsAscii char)
    : lowercase chars = chars.map simpleLowercase :=
  lowercaseAfter_of_isAscii h

/-- If a text of ASCII characters starts with the form of a character, then with all of that form,
which is the one that the character has on its own: neither form of a sigma is ASCII, nor is the
second half of that of a dotted capital I.
-/
theorem formBetween_append_eq_cons_iff {low : Char} {rest tail : List Char}
    (hlow : IsAscii low) (htail : ∀ char ∈ tail, IsAscii char)
    : formBetween before char after ++ rest = low :: tail
      ↔ lowercase [char] = [low] ∧ rest = tail := by
  rw [lowercase_singleton, formBetween, formBetween]
  by_cases hsigma : char = 'Σ'
  · have hsmall : 'σ' ≠ low := (hlow.ne (by decide)).symm
    have hfinal : 'ς' ≠ low := (hlow.ne (by decide)).symm
    simp only [if_pos hsigma, List.singleton_append, List.cons.injEq]
    constructor
    · rintro ⟨h, -⟩
      split at h <;> contradiction
    · rintro ⟨⟨h, -⟩, -⟩
      split at h <;> contradiction
  · rw [if_neg hsigma, if_neg hsigma, lowercaseChar]
    by_cases hdotted : char = 'İ'
    · rw [if_pos hdotted]
      constructor
      · intro h
        obtain ⟨-, rfl⟩ := List.cons.inj h
        exact absurd (htail '\u0307' (List.mem_cons_self ..)) (by decide)
      · rintro ⟨h, -⟩
        simp at h
    · rw [if_neg hdotted, List.singleton_append, List.cons.injEq, List.cons.injEq]
      simp

-----------------------------------------------------------------------------------------
-- Texts that differ in case
-----------------------------------------------------------------------------------------

/-- Two characters have the same lowercase form, each on its own. -/
def SameLowercase (char other : Char) : Prop :=
  lowercase [char] = lowercase [other]

/-- To have the same form as an ASCII character is to have its simple form. -/
theorem sameLowercase_iff (h : IsAscii other)
    : SameLowercase char other ↔ lowercase [char] = [simpleLowercase other] := by
  rw [SameLowercase, lowercase_singleton other, h.formBetween_eq]

/-- A text has the lowercase form of a text of ASCII characters if it does so character by
character, each on its own. By induction on the text, whatever precedes it.
-/
theorem lowercaseAfter_eq_lowercase_iff {ascii : List Char} (h : ∀ char ∈ ascii, IsAscii char)
    : lowercaseAfter before chars = lowercase ascii ↔ List.Forall₂ SameLowercase chars ascii := by
  induction chars generalizing before ascii with
  | nil =>
      rw [List.forall₂_nil_left_iff, lowercase_of_isAscii h, lowercaseAfter, eq_comm,
        List.map_eq_nil_iff]
  | cons char rest ih =>
      rw [lowercaseAfter_cons, lowercase_of_isAscii h]
      cases ascii with
      | nil =>
          have hform : formBetween before char rest ≠ [] := by
            rw [← List.length_pos_iff, length_formBetween]
            split <;> decide
          simp [hform]
      | cons expected others =>
          obtain ⟨hexpected, hothers⟩ := List.forall_mem_cons.mp h
          have hforms : ∀ char ∈ others.map simpleLowercase, IsAscii char :=
            List.forall_mem_map.mpr fun char hchar => (hothers char hchar).simpleLowercase
          rw [List.map_cons, formBetween_append_eq_cons_iff hexpected.simpleLowercase hforms,
            List.forall₂_cons, sameLowercase_iff hexpected, ← lowercase_of_isAscii hothers,
            ih hothers]

end TokenGrammar.Unicode
