import TokenGrammar.Regex.CharSet

/-! Facts about all characters of a small set, from an enumeration of them. -/

namespace TokenGrammar

namespace Unicode

/-- The characters of all ranges. -/
def CodeRanges.chars (ranges : CodeRanges) : List Char :=
  ranges.flatMap fun range =>
    (List.range' range.1 (range.2 + 1 - range.1)).map Char.ofNat

/-- A covered character is one of the listed ones, by induction on the ranges: it lies within
the first one or further ones cover it.
-/
theorem CodeRanges.mem_chars_of_cover {ranges : CodeRanges} {char : Char}
    (h : ranges.cover char.toNat)
    : char ∈ ranges.chars := by
  induction ranges with
  | nil => simp [cover] at h
  | cons range rest ih =>
      rcases range with ⟨low, high⟩
      unfold chars
      rw [List.flatMap_cons]
      simp only [cover] at h
      split at h
      case isTrue => contradiction
      case isFalse hlow =>
        rcases Bool.or_eq_true_iff.mp h with hhigh | hrest
        · have hle : char.toNat ≤ high := of_decide_eq_true hhigh
          refine List.mem_append_left _ (List.mem_map.mpr ⟨char.toNat, ?_, char.ofNat_toNat⟩)
          rw [List.mem_range'_1]
          omega
        · exact List.mem_append_right _ (ih hrest)

set_option maxRecDepth 10000 in
/-- White space has no case, by evaluation for each of the finitely many characters of the
class.
-/
theorem caseVariants_of_isSpace {char : Char} (h : isSpace char) : caseVariants char = [char] := by
  have hall : spaceRanges.chars.all fun space => caseVariants space = [space] := by
    decide +kernel
  exact of_decide_eq_true (List.all_eq_true.mp hall char (CodeRanges.mem_chars_of_cover h))

/-- The letters of ASCII. -/
def asciiLetters : List Char :=
  (List.range' 65 26 ++ List.range' 97 26).map Char.ofNat

/-- The digits of ASCII. -/
def asciiDigits : List Char :=
  (List.range' 48 10).map Char.ofNat

/-- Letters are among the listed ones, since their codes lie in one of the two ranges. -/
theorem mem_asciiLetters {char : Char} (h : char.isAlpha) : char ∈ asciiLetters := by
  refine List.mem_map.mpr ⟨char.toNat, ?_, char.ofNat_toNat⟩
  rcases Bool.or_eq_true_iff.mp h with hupper | hlower
  · have hrange : 65 ≤ char.toNat ∧ char.toNat ≤ 90 := of_decide_eq_true hupper
    exact List.mem_append_left _ (List.mem_range'_1.mpr (by omega))
  · obtain ⟨hlow, hhigh⟩ := Bool.and_eq_true_iff.mp hlower
    have hrange : 97 ≤ char.toNat ∧ char.toNat ≤ 122 :=
      ⟨of_decide_eq_true hlow, of_decide_eq_true hhigh⟩
    exact List.mem_append_right _ (List.mem_range'_1.mpr (by omega))

/-- Digits are among the listed ones, since their codes lie in the range. -/
theorem mem_asciiDigits {char : Char} (h : char.isDigit) : char ∈ asciiDigits := by
  refine List.mem_map.mpr ⟨char.toNat, ?_, char.ofNat_toNat⟩
  obtain ⟨hlow, hhigh⟩ := Bool.and_eq_true_iff.mp h
  have hrange : 48 ≤ char.toNat ∧ char.toNat ≤ 57 :=
    ⟨of_decide_eq_true hlow, of_decide_eq_true hhigh⟩
  exact List.mem_range'_1.mpr (by omega)

/-- The characters of ASCII that names consist of. -/
def asciiNameChars : List Char :=
  '_' :: (asciiLetters ++ asciiDigits)

/-- Letters, digits and the underscore are among the listed characters, by cases on which of
them it is.
-/
theorem mem_asciiNameChars {char : Char} (h : char.isAlphanum ∨ char = '_')
    : char ∈ asciiNameChars := by
  rcases h with h | rfl
  · refine List.mem_cons_of_mem _ (List.mem_append.mpr ?_)
    exact (Bool.or_eq_true_iff.mp h).imp mem_asciiLetters mem_asciiDigits
  · exact List.mem_cons_self ..

end Unicode

theorem Regex.CharSet.contains_folded_of_isSpace (set : CharSet) {char : Char}
    (h : Unicode.isSpace char)
    : (CharSet.folded set).contains char = set.contains char := by
  simp [contains, Unicode.caseVariants_of_isSpace h]

end TokenGrammar
