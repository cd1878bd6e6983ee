import TokenGrammar.Proofs.Regex.Paths

/-! The extent of a match and the spans that it records for its groups. A match takes its characters
from the text ahead of it. A group is left no earlier than it is entered, and the match goes on
from there, so each span lies within the match.
-/

namespace TokenGrammar.Regex

/-- All recorded spans lie within what has been passed. -/
def Cursor.SpansWithin (cursor : Cursor) : Prop :=
  cursor.found.SpansWithin

/-- A cursor goes on to another one: no passed character is given back, each of them is taken from
the text ahead, and if the spans lie within what was passed, they still do.
-/
structure Cursor.GoesOn (cursor reached : Cursor) : Prop where
  passed_le : cursor.passed ≤ reached.passed
  total_eq
    : reached.passed + reached.place.after.length = cursor.passed + cursor.place.after.length
  spansWithin : cursor.SpansWithin → reached.SpansWithin

namespace Cursor

variable {cursor between reached : Cursor}

theorem GoesOn.refl (cursor : Cursor) : cursor.GoesOn cursor :=
  ⟨Nat.le_refl _, rfl, id⟩

/-- One goes on by going on twice, since what was passed only grows. -/
theorem GoesOn.trans (h : cursor.GoesOn between) (h' : between.GoesOn reached)
    : cursor.GoesOn reached :=
  ⟨Nat.le_trans h.passed_le h'.passed_le, h'.total_eq.trans h.total_eq,
    h'.spansWithin ∘ h.spansWithin⟩

/-- A cursor goes on past a text that is ahead, and the spans lie within the more that has been
passed.
-/
theorem goesOn_past {text rest : List Char} (hafter : cursor.place.after = text ++ rest)
    : cursor.GoesOn (cursor.past text rest) where
  passed_le := Nat.le_add_right ..
  total_eq := by simp [hafter, Nat.add_assoc]
  spansWithin hwithin entry hentry := by
    obtain ⟨hstart, hstop⟩ := hwithin entry hentry
    exact ⟨hstart, Nat.le_trans hstop (Nat.le_add_right ..)⟩

/-- The span of a group lies between where the group was entered and where it was left. -/
theorem GoesOn.record (h : cursor.GoesOn reached) (number : Nat)
    : cursor.GoesOn (reached.record number cursor.passed) := by
  refine ⟨h.passed_le, h.total_eq, fun hwithin entry hentry => ?_⟩
  rcases List.mem_cons.mp hentry with rfl | hold
  · exact ⟨h.passed_le, Nat.le_refl _⟩
  · exact h.spansWithin hwithin entry hold

end Cursor

variable {regex : Regex} {cursor reached : Cursor}

/-- Rounds go on if each of them does, by induction on their number. -/
theorem goesOn_of_times {step : Cursor → Cursor → Prop}
    (h : ∀ {cursor reached}, step cursor reached → cursor.GoesOn reached) {rounds : Nat}
    (htimes : Times step rounds cursor reached)
    : cursor.GoesOn reached := by
  induction rounds generalizing cursor with
  | zero =>
      obtain rfl : reached = cursor := htimes
      exact .refl _
  | succ rounds ih =>
      obtain ⟨between, hbetween, hothers⟩ := htimes
      exact (h hbetween).trans (ih hothers)

/-- All paths go on, by induction on the regular expression: only characters move the place, and
only groups record spans.
-/
theorem goesOn_of_leads (hleads : regex.Leads cursor reached) : cursor.GoesOn reached := by
  induction regex generalizing cursor reached with
  | empty =>
      obtain rfl : reached = cursor := hleads
      exact .refl _
  | oneOf set =>
      obtain ⟨char, rest, hafter, -, rfl⟩ := hleads
      exact Cursor.goesOn_past hafter
  | test assertion =>
      obtain ⟨-, rfl⟩ := hleads
      exact .refl _
  | capture number name body ih =>
      obtain ⟨inner, hinner, rfl⟩ := hleads
      exact (ih hinner).record number
  | append first second ihFirst ihSecond =>
      obtain ⟨between, hbetween, hreached⟩ := hleads
      exact (ihFirst hbetween).trans (ihSecond hreached)
  | either first second ihFirst ihSecond =>
      rcases hleads with hleads | hleads
      · exact ihFirst hleads
      · exact ihSecond hleads
  | repeated body least most greedy ih =>
      obtain ⟨rounds, -, -, htimes⟩ := hleads
      exact goesOn_of_times ih htimes

/-- A match passes no more than the text that it starts at, from which it takes all that it
passes.
-/
theorem passed_le_of_match? {place : Place} {found : Match}
    (h : regex.match? place = some found)
    : found.passed ≤ place.after.length := by
  obtain ⟨reached, hleads, rfl⟩ := leads_of_match? h
  have htotal := (goesOn_of_leads hleads).total_eq
  rw [Cursor.start_passed, Cursor.start_place, Nat.zero_add] at htotal
  exact htotal ▸ Nat.le_add_right ..

/-- The spans of a match lie within the match, because they do at the end of any path from its
start, where no spans were recorded yet.
-/
theorem spansWithin_of_match? {place : Place} {found : Match}
    (h : regex.match? place = some found)
    : found.SpansWithin := by
  obtain ⟨reached, hleads, rfl⟩ := leads_of_match? h
  exact (goesOn_of_leads hleads).spansWithin nofun

/-- Where the body of a repetition may match the empty text, its group is that of the last round
that is not given up: all of `aa` for `(a*)*`, and an empty group on the empty text.
-/
example
    : let regex := zeroOrMore (.capture 1 none (.zeroOrMore (.literal 'a')))
      regex.match? ⟨none, ['a', 'a']⟩ = some ⟨2, [(1, ⟨0, 2⟩)]⟩
      ∧ regex.match? ⟨none, []⟩ = some ⟨0, [(1, ⟨0, 0⟩)]⟩ := by
  decide

end TokenGrammar.Regex
