import TokenGrammar.Proofs.Leaves
import TokenGrammar.Proofs.Regex.Greedy
import TokenGrammar.Regex.Pattern

/-! What the matchers of regular expressions take and refuse, from how the regular expressions
match, and words as the lexemes that most patterns share.
-/

namespace TokenGrammar.Regex

variable {regex : Regex} {chars rest : List Char}

/-- A matcher takes a text if its regular expression ends behind it, from wherever it starts. -/
theorem takes_of_run {text : List Char} {spans : List (Nat × Span)}
    (h
      : ∀ place : Place,
          place.after = text ++ rest
          → ∃ reached,
              regex.run (.start place) some = some reached
              ∧ reached.passed = text.length
              ∧ reached.spans = spans)
    : regex.matcher.Takes text rest spans := by
  intro place hplace
  obtain ⟨reached, hreached, hpassed, hspans⟩ := h place hplace
  refine Option.map_eq_some_iff.mpr ⟨reached, hreached, ?_⟩
  rw [Cursor.found, hpassed, hspans]

theorem refuses_of_run
    (h : ∀ place : Place, place.after = chars → regex.run (.start place) some = none)
    : regex.matcher.Refuses chars := by
  intro place hplace
  exact Option.map_eq_none_iff.mpr (h place hplace)

/-- A character of one set, and any number of another. -/
def word (start part : CharSet) : Regex :=
  .append (.oneOf start) (.zeroOrMore (.oneOf part))

section Words

variable {start part : CharSet}

/-- A word is taken up to what cannot be a part of it: its first character at once, and the others
as far as they go.
-/
theorem word_takes {first : Char} {others : List Char} (hfirst : start.contains first)
    (hothers : ∀ char ∈ others, part.contains char)
    (hrest : ∀ char ∈ rest.head?, ¬ part.contains char)
    : (word start part).matcher.Takes (first :: others) rest [] := by
  refine takes_of_run fun place hplace => ?_
  have hafter : (Cursor.start place).place.after = first :: (others ++ rest) := hplace
  have hbeyond
      : ((Cursor.start place).past [first] (others ++ rest)).beyond part
        = (Cursor.start place).past (first :: others) rest := by
    rw [Cursor.beyond_eq_past Cursor.past_after hothers hrest, Cursor.past_past]
    rfl
  refine ⟨(Cursor.start place).past (first :: others) rest, ?_, by simp, rfl⟩
  rw [word, run_append, run_oneOf_cons hafter, if_pos hfirst]
  exact run_zeroOrMore_eq_some (by rw [hbeyond])

/-- A word is refused where no character that it could start with comes next, because its first
character already fails there.
-/
theorem word_refuses (h : ∀ char ∈ chars.head?, ¬ start.contains char)
    : (word start part).matcher.Refuses chars := by
  refine refuses_of_run fun place hplace => ?_
  rw [word, run_append]
  cases chars with
  | nil => exact run_oneOf_nil hplace
  | cons char chars =>
      have hchar := h char rfl
      rw [run_oneOf_cons hplace, if_neg hchar]

end Words

end TokenGrammar.Regex
