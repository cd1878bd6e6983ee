import TokenGrammar.Proofs.Checked
import TokenGrammar.Proofs.Places
import TokenGrammar.Text.Snippet

/-! Snippets of any source around any offset. All offsets are moved to boundaries before they are
used, which keeps them in order and close to each other, so that no slice is out of range and the
caret is under the character in question.
-/

namespace TokenGrammar.Source

variable {source : Source} {offset boundary start stop : Nat}

-----------------------------------------------------------------------------------------
-- Boundaries before an offset
-----------------------------------------------------------------------------------------

/-- Of all boundaries that are not after the offset, this one is the last. -/
structure IsFloor (source : Source) (offset boundary : Nat) : Prop where
  isBoundary : source.isBoundary boundary
  le : boundary ≤ offset
  last : ∀ other, source.isBoundary other → other ≤ offset → other ≤ boundary

theorem isBoundary_zero (source : Source) : source.isBoundary 0 :=
  isBoundary_of_rest? (rest?_eq_some_iff.mpr ⟨[], rfl, rfl⟩)

/-- Stepping back from an offset ends at the last boundary that is not after it, by induction on
the offset.
-/
theorem isFloor_floor (source : Source) (offset : Nat)
    : source.IsFloor offset (source.floor offset) := by
  induction offset with
  | zero => exact ⟨source.isBoundary_zero, Nat.le_refl 0, fun _ _ hle => hle⟩
  | succ offset ih =>
      rw [floor]
      split
      case isTrue hboundary => exact ⟨hboundary, Nat.le_refl _, fun _ _ hle => hle⟩
      case isFalse hinside =>
        refine ⟨ih.isBoundary, Nat.le_succ_of_le ih.le, fun other hother hle => ?_⟩
        have hne : other ≠ offset + 1 := by
          rintro rfl
          exact hinside hother
        exact ih.last other hother (by omega)

namespace IsFloor

/-- The character behind the last boundary before an offset goes on beyond the offset, for its
end is a later boundary.
-/
theorem lt_add_utf8Size {char : Char} {rest : List Char} (h : source.IsFloor offset boundary)
    (hrest : source.rest? boundary = some (char :: rest))
    : offset < boundary + char.utf8Size := by
  have hsplit : source.rest? boundary = some ([char] ++ rest) := hrest
  have hnext : source.isBoundary (boundary + char.utf8Size) :=
    isBoundary_of_rest? (rest?_add hsplit)
  have hpos := char.utf8Size_pos
  refine Nat.lt_of_not_le fun hle => ?_
  have hlast := h.last _ hnext hle
  omega

/-- No character has more than four bytes, so the last boundary is at most three bytes away, by
cases on whether a character follows it.
-/
theorem le_add_three (h : source.IsFloor offset boundary) (hsize : offset ≤ source.size)
    : offset ≤ boundary + 3 := by
  obtain ⟨rest, hrest⟩ := isBoundary_iff.mp h.isBoundary
  cases rest with
  | nil =>
      have hend := (source.eq_size_iff_of_rest? hrest).mpr rfl
      omega
  | cons char rest =>
      have hlt := h.lt_add_utf8Size hrest
      have hfour := char.utf8Size_le_four
      omega

end IsFloor

/-- Between two boundaries that are in order there is a slice, by definition. -/
theorem exists_slice?_of_isBoundary (hstart : source.isBoundary start)
    (hstop : source.isBoundary stop) (hle : start ≤ stop)
    : ∃ text, source.slice? start stop = some text := by
  obtain ⟨first, hfirst⟩ := Option.isSome_iff_exists.mp hstart
  obtain ⟨last, hlast⟩ := Option.isSome_iff_exists.mp hstop
  exact ⟨_, by rw [slice?, hfirst, hlast]; exact if_pos hle⟩

-----------------------------------------------------------------------------------------
-- Snippets with checks
-----------------------------------------------------------------------------------------

/-- Steps back to a boundary, where no step may lead below zero. -/
def checkedFloor (source : Source) : Nat → Except Fault Nat
  | 0 => if source.isBoundary 0 then .ok 0 else .error (.underflow 0 1)
  | offset + 1 =>
      if source.isBoundary (offset + 1) then .ok (offset + 1) else source.checkedFloor offset

/-- The slice between two offsets, which must be boundaries in this order. -/
def checkedSlice (source : Source) (start stop : Nat) : Except Fault (List Char) :=
  match source.slice? start stop with
  | some text => .ok text
  | none => .error (.slice start stop)

/-- The sum of two numbers, which must be a 64-bit number. -/
def checkedSum (first second : Nat) : Except Fault Nat :=
  if first + second < UInt64.size then .ok (first + second) else .error (.overflow first second)

/-- A character as it stands in a line, with a blank for any white space. -/
def onLine (char : Char) : Char :=
  if Unicode.isSpace char then ' ' else char

/-- The snippet around an offset, with a check of each step, each slice and each sum. -/
def checkedSnippet (source : Source) (offset radius : Nat) : Except Fault String := do
  let index ← source.checkedFloor (min offset source.size)
  let start ← source.checkedFloor (index - radius)
  let limit ← checkedSum index radius
  let stop ← source.checkedFloor (min limit source.size)
  let shown ← source.checkedSlice start stop
  let before ← source.checkedSlice start index
  return String.ofList (shown.map onLine) ++ "\n" ++ blanks before.length ++ "^"

/-- No step back leads below zero, by induction on the offset: there is a boundary at zero. -/
theorem checkedFloor_eq (source : Source) (offset : Nat)
    : source.checkedFloor offset = .ok (source.floor offset) := by
  induction offset with
  | zero => exact if_pos source.isBoundary_zero
  | succ offset ih =>
      rw [checkedFloor, floor, ih]
      split <;> rfl

theorem count_map_onLine (chars : List Char) : (chars.map onLine).count '\n' = 0 := by
  refine List.count_eq_zero.mpr fun hmem => ?_
  obtain ⟨char, -, hchar⟩ := List.mem_map.mp hmem
  rw [onLine] at hchar
  split at hchar
  case isTrue => contradiction
  case isFalse hspace => exact hspace (hchar ▸ rfl)

theorem checkedSlice_eq {text : List Char} (h : source.slice? start stop = some text)
    : source.checkedSlice start stop = .ok text := by
  simp only [checkedSlice, h]

-----------------------------------------------------------------------------------------
-- What a snippet shows
-----------------------------------------------------------------------------------------

/-- The character at this boundary takes the byte at the offset. -/
structure TakesByte (source : Source) (offset first : Nat) (char : Char) : Prop where
  slice : source.slice? first (first + char.utf8Size) = some [char]
  le : first ≤ offset
  lt : offset < first + char.utf8Size

/-- The snippet shows the source from one boundary to another, and the caret is at a third one
between them. All three are as close to where they should be as boundaries can be.
-/
structure ShowsAround (source : Source) (offset radius start caret stop : Nat) : Prop where
  caret_floor : source.IsFloor (min offset source.size) caret
  start_floor : source.IsFloor (caret - radius) start
  stop_floor : source.IsFloor (min (caret + radius) source.size) stop
  start_le : start ≤ caret
  le_stop : caret ≤ stop
  start_near : caret - start ≤ radius + 3
  stop_near : stop - caret ≤ radius

/-- In a snippet from one boundary to another, the caret stands behind some of the characters that
are shown. That is where the character stands that takes the byte at the offset, or behind all of
them if no such character is shown.
-/
def CaretPointsAt (source : Source) (offset start caret stop : Nat) (before shown : List Char)
    : Prop :=
  (∃ char after,
      source.TakesByte offset caret char
      ∧ caret + char.utf8Size ≤ stop
      ∧ shown = before ++ char :: after)
  ∨ (∀ first char,
      source.TakesByte offset first char → ¬ (start ≤ first ∧ first + char.utf8Size ≤ stop))
    ∧ shown = before

variable {radius caret : Nat} {before shown : List Char}

/-- The offsets that a snippet steps back to are as close to where they should be as boundaries
can be, and in order, since stepping back keeps the order.
-/
theorem showsAround_floor (source : Source) (offset radius : Nat)
    : let caret := source.floor (min offset source.size)
      source.ShowsAround offset radius (source.floor (caret - radius)) caret
        (source.floor (min (caret + radius) source.size)) := by
  intro caret
  have hcaret := source.isFloor_floor (min offset source.size)
  have hstart := source.isFloor_floor (caret - radius)
  have hstop := source.isFloor_floor (min (caret + radius) source.size)
  have hsize : caret ≤ source.size := source.le_size_of_isBoundary hcaret.isBoundary
  have hclose := hstart.le_add_three (by omega)
  have hle := hstart.le
  have hge := hstop.le
  have hlast := hstop.last caret hcaret.isBoundary (by omega)
  exact ⟨hcaret, hstart, hstop, by omega, hlast, by omega, by omega⟩

namespace ShowsAround

/-- What is shown before the caret is the start of what is shown, since the three boundaries are
in order.
-/
theorem exists_slices (h : source.ShowsAround offset radius start caret stop)
    : ∃ before after,
        source.slice? start caret = some before
        ∧ source.slice? caret stop = some after
        ∧ source.slice? start stop = some (before ++ after) := by
  obtain ⟨before, hbefore⟩ :=
    exists_slice?_of_isBoundary h.start_floor.isBoundary h.caret_floor.isBoundary h.start_le
  obtain ⟨after, hafter⟩ :=
    exists_slice?_of_isBoundary h.caret_floor.isBoundary h.stop_floor.isBoundary h.le_stop
  exact ⟨before, after, hbefore, hafter, slice?_append hbefore hafter⟩

/-- A character behind the caret takes the byte at the offset, because the caret is at the last
boundary before that.
-/
theorem takesByte {char : Char} {after : List Char}
    (h : source.ShowsAround offset radius start caret stop)
    (hafter : source.slice? caret stop = some (char :: after))
    : source.TakesByte offset caret char ∧ caret + char.utf8Size ≤ stop := by
  obtain ⟨-, rest, hrest, hstop⟩ := slice?_eq_some_iff.mp hafter
  have hsplit : source.rest? caret = some ([char] ++ (after ++ rest)) := hrest
  have hslice : source.slice? caret (caret + char.utf8Size) = some [char] :=
    slice?_of_rest? hsplit
  have hlength := stop_eq_of_slice? hafter
  rw [byteLength] at hlength
  have hle := h.caret_floor.le
  have hlt := h.caret_floor.lt_add_utf8Size hrest
  have hsize := source.le_size_of_isBoundary (isBoundary_of_rest? hstop)
  exact ⟨⟨hslice, by omega, by omega⟩, by omega⟩

/-- The caret points at the character at the offset, or behind all of them, by cases on whether
any is shown behind the caret.
-/
theorem caretPointsAt {after : List Char} (h : source.ShowsAround offset radius start caret stop)
    (hafter : source.slice? caret stop = some after)
    : source.CaretPointsAt offset start caret stop before (before ++ after) := by
  cases after with
  | nil =>
      refine Or.inr ⟨fun first char htakes hshown => ?_, List.append_nil _⟩
      have hend : stop = caret := stop_eq_of_slice? hafter
      have hle := h.caret_floor.le
      have hlt := htakes.lt
      omega
  | cons char after =>
      obtain ⟨htakes, hle⟩ := h.takesByte hafter
      exact Or.inl ⟨char, after, htakes, hle, rfl⟩

end ShowsAround

/-- A snippet is put together without a fault if the offset, or the size of the source for an offset
past its end, and the radius add up to a 64-bit number. It has two lines. The first one shows the
source from one boundary to another, close to the radius before and after the offset, with blanks
for all white space. The second one has the caret under the character at the offset, or behind all
characters if that one is not shown.
-/
theorem snippet_points_at_offset {source : Source} {offset radius : Nat}
    (hfits : min offset source.size + radius < UInt64.size)
    : source.checkedSnippet offset radius = .ok (source.snippet offset radius)
      ∧ (source.snippet offset radius).toList.count '\n' = 1
      ∧ ∃ start caret stop shown before,
          source.ShowsAround offset radius start caret stop
          ∧ source.slice? start stop = some shown
          ∧ source.slice? start caret = some before
          ∧ (source.snippet offset radius).toList
            = shown.map onLine ++ '\n' :: (List.replicate before.length ' ' ++ ['^'])
          ∧ source.CaretPointsAt offset start caret stop before shown := by
  have hshows := source.showsAround_floor offset radius
  obtain ⟨before, after, hbefore, hafter, hshown⟩ := hshows.exists_slices
  have hsnippet : source.snippet offset radius
      = String.ofList ((before ++ after).map onLine) ++ "\n" ++ blanks before.length ++ "^" := by
    simp only [snippet, hbefore, hshown, Option.getD_some]
    rfl
  have hlines : (source.snippet offset radius).toList
      = (before ++ after).map onLine
        ++ '\n' :: (List.replicate before.length ' ' ++ ['^']) := by
    simp [hsnippet, blanks]
  have hcaret : (List.replicate before.length ' ' ++ ['^']).count '\n' = 0 := by
    simp [List.count_eq_zero]
  have hsum : checkedSum (source.floor (min offset source.size)) radius
      = .ok (source.floor (min offset source.size) + radius) := by
    have hle := hshows.caret_floor.le
    exact if_pos (by omega)
  refine ⟨?_, ?_, _, _, _, _, _, hshows, hshown, hbefore, hlines, hshows.caretPointsAt hafter⟩
  · simp only [checkedSnippet, checkedFloor_eq, bind, Except.bind, hsum, checkedSlice_eq hshown,
      checkedSlice_eq hbefore, hsnippet]
    rfl
  · rw [hlines, List.count_append, count_map_onLine, List.count_cons_self, hcaret]

/-- In a source with characters of one to three bytes, the offset is inside of `ö`. The radius
before it ends inside of `€`, which is shown, and the caret stands behind two of four characters.
-/
theorem umlaut_pointed_at
    : let source := Source.ofString "x€\nöy"
      min 6 source.size + 3 < UInt64.size
      ∧ source.snippet 6 3 = "€ öy\n  ^"
      ∧ source.checkedSnippet 6 3 = .ok (source.snippet 6 3)
      ∧ (source.snippet 6 3).toList.count '\n' = 1
      ∧ ∃ start caret stop shown before,
          source.ShowsAround 6 3 start caret stop
          ∧ source.slice? start stop = some shown
          ∧ source.slice? start caret = some before
          ∧ (source.snippet 6 3).toList
            = shown.map onLine ++ '\n' :: (List.replicate before.length ' ' ++ ['^'])
          ∧ source.CaretPointsAt 6 start caret stop before shown := by
  intro source
  have hfits : min 6 source.size + 3 < UInt64.size := by decide
  have hsnippet : source.snippet 6 3 = "€ öy\n  ^" := by decide
  exact ⟨hfits, hsnippet, snippet_points_at_offset hfits⟩

end TokenGrammar.Source
