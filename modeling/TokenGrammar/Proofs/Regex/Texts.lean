import Mathlib.Data.List.Forall2
import TokenGrammar.Proofs.Leaves
import TokenGrammar.Proofs.Regex.Paths
import TokenGrammar.Regex.Pattern

/-! The texts along the paths of regular expressions. They tell what a matcher may find, whichever
of the paths it prefers.
-/

namespace TokenGrammar

namespace Regex

/-- All paths of the regular expression are along texts of this form. -/
def Spells (regex : Regex) (holds : List Char → Prop) : Prop :=
  ∀ ⦃cursor reached⦄,
    regex.Leads cursor reached
    → ∃ text,
        cursor.place.after = text ++ reached.place.after
        ∧ reached.passed = cursor.passed + text.length
        ∧ holds text

/-- A matcher finds what its regular expression spells, since a match is the end of a path. -/
theorem Spells.matcher {regex : Regex} {holds : List Char → Prop} (h : regex.Spells holds)
    : regex.matcher.Spells holds := by
  intro place found hfound
  obtain ⟨reached, hleads, rfl⟩ := leads_of_match? hfound
  obtain ⟨text, hafter, hpassed, htext⟩ := h hleads
  exact ⟨text, reached.place.after, hafter, hpassed.trans (Nat.zero_add _), htext⟩

theorem sequence_cons {first : Regex} {rest : List Regex} (hrest : rest ≠ [])
    : sequence (first :: rest) = .append first (sequence rest) := by
  cases rest with
  | nil => contradiction
  | cons second rest => rfl

namespace Spells

variable {regex first second body : Regex} {holds other : List Char → Prop}

/-- A form may be replaced by a weaker one. -/
theorem mono (h : regex.Spells holds) (himp : ∀ text, holds text → other text)
    : regex.Spells other := by
  intro cursor reached hleads
  obtain ⟨text, hafter, hpassed, htext⟩ := h hleads
  exact ⟨text, hafter, hpassed, himp text htext⟩

theorem oneOf (set : CharSet)
    : (Regex.oneOf set).Spells fun text => ∃ char, set.contains char ∧ text = [char] := by
  intro cursor reached hleads
  obtain ⟨char, rest, hafter, hchar, rfl⟩ := hleads
  exact ⟨[char], hafter, rfl, char, hchar, rfl⟩

/-- A condition spells nothing, since it stays where it is. -/
theorem test (assertion : Assertion) : (Regex.test assertion).Spells (· = []) := by
  intro cursor reached hleads
  obtain ⟨-, rfl⟩ := hleads
  exact ⟨[], rfl, rfl, rfl⟩

/-- A group spells what its body does, since it only records a span. -/
theorem capture {number : Nat} {name : Option String} (h : body.Spells holds)
    : (Regex.capture number name body).Spells holds := by
  intro cursor reached hleads
  obtain ⟨inner, hinner, rfl⟩ := hleads
  obtain ⟨text, hafter, hpassed, htext⟩ := h hinner
  exact ⟨text, hafter, hpassed, htext⟩

/-- One part after the other spells a text of the first form and then one of the second form. -/
theorem append (hfirst : first.Spells holds) (hsecond : second.Spells other)
    : (Regex.append first second).Spells fun text =>
        ∃ front back, text = front ++ back ∧ holds front ∧ other back := by
  intro cursor reached hleads
  obtain ⟨between, hbetween, hreached⟩ := hleads
  obtain ⟨front, hafter, hpassed, hfront⟩ := hfirst hbetween
  obtain ⟨back, hafter', hpassed', hback⟩ := hsecond hreached
  refine ⟨front ++ back, ?_, ?_, front, back, rfl, hfront, hback⟩
  · rw [hafter, hafter', List.append_assoc]
  · rw [hpassed', hpassed, List.length_append, Nat.add_assoc]

/-- Two ways spell a text of one of both forms, by cases on which way the path goes. -/
theorem either (hfirst : first.Spells holds) (hsecond : second.Spells other)
    : (Regex.either first second).Spells fun text => holds text ∨ other text := by
  intro cursor reached hleads
  rcases hleads with hleads | hleads
  · exact hfirst.mono (fun _ => Or.inl) hleads
  · exact hsecond.mono (fun _ => Or.inr) hleads

/-- Rounds spell one text each, as many as there are rounds, by induction on their number. -/
theorem repeated (h : body.Spells holds) (least : Nat) (most : Option Nat) (greedy : Bool)
    : (Regex.repeated body least most greedy).Spells fun text =>
        ∃ texts : List (List Char),
          text = texts.flatten
          ∧ (∀ part ∈ texts, holds part)
          ∧ least ≤ texts.length
          ∧ ∀ bound ∈ most, texts.length ≤ max least bound := by
  intro cursor reached hleads
  obtain ⟨rounds, hleast, hmost, htimes⟩ := hleads
  have htexts
      : ∃ texts : List (List Char),
          cursor.place.after = texts.flatten ++ reached.place.after
          ∧ reached.passed = cursor.passed + texts.flatten.length
          ∧ (∀ part ∈ texts, holds part)
          ∧ texts.length = rounds := by
    clear hleast hmost
    induction rounds generalizing cursor with
    | zero =>
        obtain rfl : reached = cursor := htimes
        exact ⟨[], rfl, rfl, by simp, rfl⟩
    | succ rounds ih =>
        obtain ⟨between, hbetween, hothers⟩ := htimes
        obtain ⟨part, hafter, hpassed, hpart⟩ := h hbetween
        obtain ⟨texts, hafter', hpassed', htexts, hlength⟩ := ih hothers
        refine ⟨part :: texts, ?_, ?_, List.forall_mem_cons.mpr ⟨hpart, htexts⟩, ?_⟩
        · rw [hafter, hafter', List.flatten_cons, List.append_assoc]
        · rw [hpassed', hpassed, List.flatten_cons, List.length_append, Nat.add_assoc]
        · rw [List.length_cons, hlength]
  obtain ⟨texts, hafter, hpassed, htexts, rfl⟩ := htexts
  exact ⟨texts.flatten, hafter, hpassed, texts, rfl, htexts, hleast, hmost⟩

theorem literal (char : Char) : (Regex.literal char).Spells (· = [char]) := by
  refine (oneOf (.single char)).mono ?_
  rintro _ ⟨other, hother, rfl⟩
  have hrange : char ≤ other ∧ other ≤ char := by
    simpa [CharSet.single, CharSet.contains] using hother
  rw [Char.le_antisymm hrange.2 hrange.1]

/-- Repeated characters of a set spell texts of these characters, since each round spells one of
them.
-/
theorem zeroOrMore_oneOf (set : CharSet)
    : (Regex.zeroOrMore (.oneOf set)).Spells fun text => ∀ char ∈ text, set.contains char := by
  refine ((oneOf set).repeated 0 none true).mono ?_
  rintro _ ⟨texts, rfl, htexts, -, -⟩ char hchar
  obtain ⟨part, hpart, hmem⟩ := List.mem_flatten.mp hchar
  obtain ⟨other, hother, rfl⟩ := htexts part hpart
  rwa [List.mem_singleton.mp hmem]

/-- One character of a set and more of them spell texts of these characters that are not empty,
since there is at least one round.
-/
theorem oneOrMore_oneOf (set : CharSet)
    : (Regex.oneOrMore (.oneOf set)).Spells fun text =>
        text ≠ [] ∧ ∀ char ∈ text, set.contains char := by
  refine ((oneOf set).repeated 1 none true).mono ?_
  rintro _ ⟨texts, rfl, htexts, hleast, -⟩
  constructor
  · intro hnil
    obtain ⟨part, hpart⟩ := List.exists_mem_of_length_pos hleast
    obtain ⟨other, -, rfl⟩ := htexts part hpart
    simpa using List.flatten_eq_nil_iff.mp hnil [other] hpart
  · intro char hchar
    obtain ⟨part, hpart, hmem⟩ := List.mem_flatten.mp hchar
    obtain ⟨other, hother, rfl⟩ := htexts part hpart
    rwa [List.mem_singleton.mp hmem]

/-- What may be left out spells nothing or a text of its form, by cases on the number of rounds.
-/
theorem zeroOrOne (h : body.Spells holds)
    : (Regex.zeroOrOne body).Spells fun text => text = [] ∨ holds text := by
  refine (h.repeated 0 (some 1) true).mono ?_
  rintro _ ⟨texts, rfl, htexts, -, hmost⟩
  match texts, hmost 1 rfl with
  | [], _ => exact Or.inl rfl
  | [part], _ =>
      refine Or.inr ?_
      simpa using htexts part (List.mem_singleton_self part)
  | _ :: _ :: _, hlength => simp at hlength

/-- Sets one after the other spell one character each, before the text of what is last, by
induction on the sets.
-/
theorem sequence_oneOf {last : Regex} (hlast : last.Spells holds) (sets : List CharSet)
    : (Regex.sequence (sets.map .oneOf ++ [last])).Spells fun text =>
        ∃ front back,
          text = front ++ back
          ∧ List.Forall₂ (fun set char => CharSet.contains set char) sets front
          ∧ holds back := by
  induction sets with
  | nil => exact hlast.mono fun text htext => ⟨[], text, rfl, .nil, htext⟩
  | cons set sets ih =>
      rw [List.map_cons, List.cons_append, sequence_cons (by simp)]
      refine ((oneOf set).append ih).mono ?_
      rintro _ ⟨_, _, rfl, ⟨char, hchar, rfl⟩, front, back, rfl, hfront, hback⟩
      exact ⟨char :: front, back, rfl, .cons hchar hfront, hback⟩

end Spells

/-- Without captures, no spans are recorded, by induction on the regular expression. -/
theorem spans_eq_of_leads {regex : Regex} {cursor reached : Cursor}
    (hcaptures : regex.captures = []) (hleads : regex.Leads cursor reached)
    : reached.spans = cursor.spans := by
  induction regex generalizing cursor reached with
  | empty => rw [show reached = cursor from hleads]
  | oneOf set =>
      obtain ⟨char, rest, -, -, rfl⟩ := hleads
      rfl
  | test assertion => rw [hleads.2]
  | capture number name body => simp [captures] at hcaptures
  | append first second ihFirst ihSecond =>
      obtain ⟨hfirst, hsecond⟩ := List.append_eq_nil_iff.mp hcaptures
      obtain ⟨between, hbetween, hreached⟩ := hleads
      rw [ihSecond hsecond hreached, ihFirst hfirst hbetween]
  | either first second ihFirst ihSecond =>
      obtain ⟨hfirst, hsecond⟩ := List.append_eq_nil_iff.mp hcaptures
      rcases hleads with hleads | hleads
      · exact ihFirst hfirst hleads
      · exact ihSecond hsecond hleads
  | repeated body least most greedy ih =>
      obtain ⟨rounds, -, -, htimes⟩ := hleads
      induction rounds generalizing cursor with
      | zero => rw [show reached = cursor from htimes]
      | succ rounds ihRounds =>
          obtain ⟨between, hbetween, hothers⟩ := htimes
          rw [ihRounds hothers, ih hcaptures hbetween]

end Regex

end TokenGrammar
