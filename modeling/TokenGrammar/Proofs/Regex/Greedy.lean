import Mathlib.Data.List.TakeWhile
import TokenGrammar.Proofs.Regex.Paths

/-! How regular expressions match where no choice is kept track of. Greedy repetition of a set of
characters first tries to take all characters of the set that come next. Where what is left to match
goes on from there, or could not go on from anywhere before, nothing else is tried.
-/

namespace TokenGrammar.Regex

variable {set : CharSet} {cursor result : Cursor} {next : Continuation} {text rest : List Char}

-----------------------------------------------------------------------------------------
-- Cursors
-----------------------------------------------------------------------------------------

/-- The cursor after all characters of the set that come next. -/
def Cursor.beyond (cursor : Cursor) (set : CharSet) : Cursor :=
  cursor.past (cursor.place.after.takeWhile set.contains)
    (cursor.place.after.dropWhile set.contains)

theorem Cursor.past_nil : cursor.past [] cursor.place.after = cursor := by
  simp [Cursor.past]

/-- A cursor passes a text character by character. -/
theorem Cursor.past_past {between text' rest' : List Char}
    : (cursor.past text between).past text' rest' = cursor.past (text ++ text') rest' := by
  simp [Cursor.past, List.getLast?_append, Nat.add_assoc, Option.or_assoc]

theorem Cursor.beyond_eq_self (h : ∀ char ∈ cursor.place.after.head?, ¬ set.contains char)
    : cursor.beyond set = cursor := by
  unfold Cursor.beyond
  cases hafter : cursor.place.after with
  | nil => simpa [hafter] using cursor.past_nil
  | cons char rest =>
      have hchar : set.contains char = false := by simpa [hafter] using h
      simpa [hafter, hchar] using cursor.past_nil

/-- Between a cursor and the place beyond a set lies a text of members that no further member
follows, by the laws of takeWhile and dropWhile.
-/
theorem Cursor.exists_beyond_eq (cursor : Cursor) (set : CharSet)
    : ∃ text rest,
        cursor.place.after = text ++ rest
        ∧ (∀ char ∈ text, set.contains char)
        ∧ (∀ char ∈ rest.head?, ¬ set.contains char)
        ∧ cursor.beyond set = cursor.past text rest := by
  refine ⟨cursor.place.after.takeWhile set.contains, cursor.place.after.dropWhile set.contains,
    List.takeWhile_append_dropWhile.symm, ?_, ?_, rfl⟩
  · intro char hchar
    exact List.mem_takeWhile_imp hchar
  · intro char hchar
    have hnot := List.head?_dropWhile_not set.contains cursor.place.after
    rw [Option.mem_def.mp hchar] at hnot
    simpa using hnot

/-- A text of characters of the set, with no other one next, is what lies before the place
beyond it, because the rest gives nothing to take.
-/
theorem Cursor.beyond_eq_past (hafter : cursor.place.after = text ++ rest)
    (htext : ∀ char ∈ text, set.contains char)
    (hrest : ∀ char ∈ rest.head?, ¬ set.contains char)
    : cursor.beyond set = cursor.past text rest := by
  have htake : rest.takeWhile set.contains = [] := by
    cases rest with
    | nil => rfl
    | cons char rest => simpa using hrest char rfl
  have hdrop : rest.dropWhile set.contains = rest := by
    cases rest with
    | nil => rfl
    | cons char rest => simpa using hrest char rfl
  rw [Cursor.beyond, hafter, List.takeWhile_append_of_pos htext,
    List.dropWhile_append_of_pos htext, htake, hdrop, List.append_nil]

/-- Beyond the set is beyond its first character and then the others, since both ways pass the
same characters.
-/
theorem Cursor.beyond_cons {char : Char} (hafter : cursor.place.after = char :: rest)
    (hchar : set.contains char)
    : cursor.beyond set = (cursor.past [char] rest).beyond set := by
  simp [Cursor.beyond, Cursor.past, hafter, hchar, Nat.add_assoc, Nat.add_comm 1,
    List.getLast?_cons]

-----------------------------------------------------------------------------------------
-- Parts
-----------------------------------------------------------------------------------------

section Parts

variable {first second body : Regex} {char : Char}

/-- A part is matched with the next one left to match, by definition. -/
theorem run_append
    : (append first second).run cursor next
      = first.run cursor fun reached => second.run reached next :=
  rfl

/-- A group is matched as its body is, and then recorded from where it was entered. -/
theorem run_capture {number : Nat} {name : Option String}
    : (capture number name body).run cursor next
      = body.run cursor fun reached => next (reached.record number cursor.passed) :=
  rfl

theorem run_test {assertion : Assertion} (h : assertion.holds cursor.place)
    : (test assertion).run cursor next = next cursor :=
  if_pos h

/-- A way that leads on is taken, whatever else could be tried. -/
theorem orElse_eq_some {way : Option Cursor} {others : Unit → Option Cursor}
    (h : way = some result)
    : way.orElse others = some result := by
  rw [h]
  rfl

theorem run_either
    : (either first second).run cursor next
      = (first.run cursor next).orElse fun _ => second.run cursor next :=
  rfl

/-- The first alternative is taken if it leads on, and the second one is not tried then. -/
theorem run_either_first (h : first.run cursor next = some result)
    : (either first second).run cursor next = some result :=
  orElse_eq_some h

/-- The second alternative is taken if it leads on and the first one does not. -/
theorem run_either_second (hfirst : first.run cursor next = none)
    (hsecond : second.run cursor next = some result)
    : (either first second).run cursor next = some result := by
  rw [run_either, hfirst]
  exact hsecond

/-- Alternatives fail together if each of them does. -/
theorem run_either_eq_none (hfirst : first.run cursor next = none)
    (hsecond : second.run cursor next = none)
    : (either first second).run cursor next = none := by
  rw [run_either, hfirst, hsecond]
  rfl

/-- A set is matched by the character that comes next, if that is a member. -/
theorem run_oneOf_cons (hafter : cursor.place.after = char :: rest)
    : (oneOf set).run cursor next
      = if set.contains char then next (cursor.past [char] rest) else none := by
  rw [run, runAt, hafter]

theorem run_oneOf_nil (hafter : cursor.place.after = [])
    : (oneOf set).run cursor next = none := by
  rw [run, runAt, hafter]

/-- What is left to match only matters behind the character that a set is matched by. -/
theorem run_oneOf_congr {next' : Continuation}
    (h : ∀ char rest, next (cursor.past [char] rest) = next' (cursor.past [char] rest))
    : (oneOf set).run cursor next = (oneOf set).run cursor next' := by
  cases hafter : cursor.place.after with
  | nil => rw [run_oneOf_nil hafter, run_oneOf_nil hafter]
  | cons char rest => rw [run_oneOf_cons hafter, run_oneOf_cons hafter, h]

/-- The set of one character has no other members, by the antisymmetry of the order. -/
theorem CharSet.contains_single_iff {other : Char}
    : (CharSet.single char).contains other ↔ other = char := by
  simp only [CharSet.single, CharSet.contains, Bool.and_eq_true, decide_eq_true_eq]
  constructor
  · intro h
    exact Char.le_antisymm h.2 h.1
  · intro h
    rw [h]
    exact ⟨Char.le_refl char, Char.le_refl char⟩

theorem run_literal_eq_some (hafter : cursor.place.after = char :: rest)
    (h : next (cursor.past [char] rest) = some result)
    : (literal char).run cursor next = some result := by
  rw [literal, run_oneOf_cons hafter, if_pos (CharSet.contains_single_iff.mpr rfl), h]

theorem run_literal_eq_none (h : ∀ other ∈ cursor.place.after.head?, other ≠ char)
    : (literal char).run cursor next = none := by
  cases hafter : cursor.place.after with
  | nil => exact run_oneOf_nil hafter
  | cons other rest =>
      have hne := h other (by simp [hafter])
      rw [literal, run_oneOf_cons hafter, if_neg (mt CharSet.contains_single_iff.mp hne)]

end Parts

-----------------------------------------------------------------------------------------
-- Repetition
-----------------------------------------------------------------------------------------

/-- A repetition whose rounds pass something is tried as often as there are characters left. -/
theorem run_zeroOrMore {body : Regex} (h : body.isNullable = false)
    : (zeroOrMore body).run cursor next
      = anyNumber body.runAt true cursor.place.after none cursor next := by
  simp [run, zeroOrMore, runAt, h, atLeast]

/-- One member of the set at least is one member and then any number of them, by definition. -/
theorem run_oneOrMore_oneOf
    : (oneOrMore (.oneOf set)).run cursor next
      = (oneOf set).run cursor fun reached => (zeroOrMore (.oneOf set)).run reached next :=
  rfl

/-- Where rounds are left, one more of them is tried first, and none if that leads nowhere. -/
theorem anyNumber_cons {body : Regex} {char : Char} {left : List Char}
    : anyNumber body.runAt true (char :: left) none cursor next
      = (body.run cursor fun reached =>
            anyNumber body.runAt true left none reached next).orElse
          fun _ => next cursor :=
  rfl

/-- At the end of a text, a repetition ends, since no round is left. -/
theorem run_zeroOrMore_oneOf_nil (hafter : cursor.place.after = [])
    : (zeroOrMore (.oneOf set)).run cursor next = next cursor := by
  rw [run_zeroOrMore rfl, hafter]
  rfl

/-- A repetition either takes a character of the set and goes on, or it ends, by cases on
whether the next character is a member.
-/
theorem run_zeroOrMore_oneOf_cons {char : Char} (hafter : cursor.place.after = char :: rest)
    : (zeroOrMore (.oneOf set)).run cursor next
      = if set.contains char then
          ((zeroOrMore (.oneOf set)).run (cursor.past [char] rest) next).orElse
            fun _ => next cursor
        else next cursor := by
  rw [run_zeroOrMore rfl, hafter, anyNumber_cons, run_oneOf_cons hafter]
  split
  case isTrue => simp [run_zeroOrMore (rfl : (oneOf set).isNullable = false)]
  case isFalse => rfl

/-- If what is left matches beyond the set, that is the match, by induction on the characters
left: each member is preferred to an earlier end.
-/
theorem run_zeroOrMore_eq_some (h : next (cursor.beyond set) = some result)
    : (zeroOrMore (.oneOf set)).run cursor next = some result := by
  generalize hafter : cursor.place.after = chars
  induction chars generalizing cursor with
  | nil =>
      rw [run_zeroOrMore_oneOf_nil hafter, ← h, Cursor.beyond_eq_self (by simp [hafter])]
  | cons char rest ih =>
      rw [run_zeroOrMore_oneOf_cons hafter]
      split
      case isTrue hchar =>
        rw [ih (Cursor.beyond_cons hafter hchar ▸ h) rfl]
        rfl
      case isFalse hchar =>
        rw [← h, Cursor.beyond_eq_self (by simpa [hafter] using hchar)]

/-- If what is left never starts with a character of the set, it has to match beyond the set, by
induction on the characters left: it fails at each of the members.
-/
theorem run_zeroOrMore_eq_next
    (h
      : ∀ reached : Cursor,
          (∃ char ∈ reached.place.after.head?, set.contains char) → next reached = none)
    : (zeroOrMore (.oneOf set)).run cursor next = next (cursor.beyond set) := by
  generalize hafter : cursor.place.after = chars
  induction chars generalizing cursor with
  | nil => rw [run_zeroOrMore_oneOf_nil hafter, Cursor.beyond_eq_self (by simp [hafter])]
  | cons char rest ih =>
      rw [run_zeroOrMore_oneOf_cons hafter]
      split
      case isTrue hchar =>
        rw [ih rfl, ← Cursor.beyond_cons hafter hchar, h cursor ⟨char, by simp [hafter], hchar⟩]
        simp
      case isFalse hchar => rw [Cursor.beyond_eq_self (by simpa [hafter] using hchar)]

/-- If what is left matches after a text of the set, which no member of the set follows, then that
text is taken.
-/
theorem run_oneOrMore_eq_some {first : Char}
    (hafter : cursor.place.after = first :: (text ++ rest)) (hfirst : set.contains first)
    (htext : ∀ char ∈ text, set.contains char)
    (hrest : ∀ char ∈ rest.head?, ¬ set.contains char)
    (h : next (cursor.past (first :: text) rest) = some result)
    : (oneOrMore (.oneOf set)).run cursor next = some result := by
  have hbeyond
      : (cursor.past [first] (text ++ rest)).beyond set = cursor.past (first :: text) rest := by
    rw [Cursor.beyond_eq_past Cursor.past_after htext hrest, Cursor.past_past]
    rfl
  rw [run_oneOrMore_oneOf, run_oneOf_cons hafter, if_pos hfirst]
  exact run_zeroOrMore_eq_some (by rw [hbeyond, h])

/-- In front of anything but a member of the set, one member at least is not to be had. -/
theorem run_oneOrMore_eq_none (h : ∀ char ∈ cursor.place.after.head?, ¬ set.contains char)
    : (oneOrMore (.oneOf set)).run cursor next = none := by
  rw [run_oneOrMore_oneOf]
  cases hafter : cursor.place.after with
  | nil => exact run_oneOf_nil hafter
  | cons char rest =>
      have hchar := h char (by simp [hafter])
      rw [run_oneOf_cons hafter, if_neg hchar]

end TokenGrammar.Regex
