import TokenGrammar.Text.Source

/-! What a source has from an offset on, and what it has between two offsets. Both are stated as
splits of its characters, so that spans can be put together without counting bytes.
-/

namespace TokenGrammar

/-- Of two splits of a text, the one that takes no fewer bytes goes on where the other ends:
were it the shorter one, a character would take no bytes.
-/
theorem exists_between_of_byteLength_le {front rest front' rest' : List Char}
    (hsplit : front ++ rest = front' ++ rest')
    (hle : byteLength front ≤ byteLength front')
    : ∃ text, front' = front ++ text ∧ rest = text ++ rest' := by
  rcases List.append_eq_append_iff.mp hsplit with ⟨text, hfront, hrest⟩ | ⟨text, hfront, hrest⟩
  · exact ⟨text, hfront, hrest⟩
  · cases text with
    | nil => exact ⟨[], by simpa using hfront.symm, by simpa using hrest.symm⟩
    | cons char text =>
        have hpos := byteLength_cons_pos char text
        rw [hfront, byteLength_append] at hle
        omega

namespace Source

variable {source : Source} {start stop offset : Nat} {text rest : List Char}

/-- The characters from an offset on, if it is a boundary. -/
def rest? (source : Source) (offset : Nat) : Option (List Char) :=
  (source.at? offset).map Place.after

/-- The rest is what a front part of so many bytes leaves. -/
theorem rest?_eq_some_iff
    : source.rest? offset = some rest
      ↔ ∃ front, source.chars = front ++ rest ∧ byteLength front = offset := by
  simp only [rest?, Option.map_eq_some_iff, at?_eq_some_iff]
  constructor
  · intro h
    obtain ⟨place, ⟨front, hsplit, hlength, -⟩, rfl⟩ := h
    exact ⟨front, hsplit, hlength⟩
  · intro h
    obtain ⟨front, hsplit, hlength⟩ := h
    exact ⟨⟨front.getLast?, rest⟩, ⟨front, hsplit, hlength, rfl⟩, rfl⟩

/-- Boundaries are the offsets from which on there is a rest. -/
theorem isBoundary_iff
    : source.isBoundary offset ↔ ∃ rest, source.rest? offset = some rest := by
  rw [← Option.isSome_iff_exists, rest?, Option.isSome_map, isBoundary]

theorem not_isBoundary_iff : ¬ source.isBoundary offset ↔ source.rest? offset = none := by
  rw [isBoundary_iff, ← Option.isSome_iff_exists, Bool.not_eq_true, Option.isSome_eq_false_iff,
    Option.isNone_iff_eq_none]

theorem isBoundary_of_rest? (h : source.rest? offset = some rest) : source.isBoundary offset :=
  isBoundary_iff.mpr ⟨rest, h⟩

theorem rest?_of_at? {place : Place} (h : source.at? offset = some place)
    : source.rest? offset = some place.after := by
  simp [rest?, h]

theorem exists_at?_of_rest? (h : source.rest? offset = some rest)
    : ∃ place, source.at? offset = some place ∧ place.after = rest :=
  Option.map_eq_some_iff.mp h

/-- No boundary lies past the end, since the bytes in front of it are some of the bytes of the
source.
-/
theorem le_size_of_isBoundary (h : source.isBoundary offset) : offset ≤ source.size := by
  obtain ⟨rest, h⟩ := isBoundary_iff.mp h
  obtain ⟨front, hsplit, rfl⟩ := rest?_eq_some_iff.mp h
  rw [size_eq, hsplit, byteLength_append]
  omega

theorem rest?_eq_none_of_size_lt (h : source.size < offset) : source.rest? offset = none := by
  cases hrest : source.rest? offset with
  | none => rfl
  | some rest =>
      have := source.le_size_of_isBoundary (isBoundary_of_rest? hrest)
      omega

/-- A rest that starts with a text has a rest of its own after the bytes of the text, because
what is in front of that is the old front and the text.
-/
theorem rest?_add (h : source.rest? offset = some (text ++ rest))
    : source.rest? (offset + byteLength text) = some rest := by
  obtain ⟨front, hsplit, rfl⟩ := rest?_eq_some_iff.mp h
  exact rest?_eq_some_iff.mpr ⟨front ++ text, by simp [hsplit], byteLength_append front text⟩

/-- The bytes before an offset and those of the rest are all bytes of the source, by the split
of the source there.
-/
theorem add_byteLength_of_rest? (h : source.rest? offset = some rest)
    : offset + byteLength rest = source.size := by
  obtain ⟨front, hsplit, rfl⟩ := rest?_eq_some_iff.mp h
  rw [size_eq, hsplit, byteLength_append]

/-- A source goes on where there is a rest that is not empty, for any character takes a byte. -/
theorem lt_size_of_rest? (h : source.rest? offset = some rest) (hrest : rest ≠ [])
    : offset < source.size := by
  obtain ⟨char, others, rfl⟩ := List.exists_cons_of_ne_nil hrest
  have hpos := byteLength_cons_pos char others
  have hsize := source.add_byteLength_of_rest? h
  omega

/-- A boundary is the end of the source if nothing follows it, by cases on the rest: its first
character would take a byte.
-/
theorem eq_size_iff_of_rest? (h : source.rest? offset = some rest)
    : offset = source.size ↔ rest = [] := by
  have hsize := source.add_byteLength_of_rest? h
  cases rest with
  | nil => simpa [byteLength] using hsize
  | cons char others =>
      have hpos := byteLength_cons_pos char others
      simp only [reduceCtorEq, iff_false]
      omega

theorem rest?_add_take (count : Nat) (h : source.rest? offset = some rest)
    : source.rest? (offset + byteLength (rest.take count)) = some (rest.drop count) :=
  rest?_add (by simpa only [List.take_append_drop] using h)

theorem isBlankFrom_iff_of_rest? (h : source.rest? offset = some rest)
    : source.isBlankFrom offset ↔ ∀ char ∈ rest, Unicode.isSpace char := by
  obtain ⟨place, hplace, rfl⟩ := source.exists_at?_of_rest? h
  simp only [isBlankFrom, hplace, List.all_eq_true]

/-- A slice is what the rest at its start has more than the rest at its end. The two boundaries
split the source, and what is between them is taken from the first.
-/
theorem slice?_eq_some_iff
    : source.slice? start stop = some text
      ↔ start ≤ stop
        ∧ ∃ rest, source.rest? start = some (text ++ rest) ∧ source.rest? stop = some rest := by
  constructor
  · intro h
    unfold slice? at h
    split at h
    case h_1 first last hfirst hlast =>
      split at h
      case isTrue hle =>
        obtain ⟨front, hsplit, hstart⟩ := rest?_eq_some_iff.mp (rest?_of_at? hfirst)
        obtain ⟨front', hsplit', hstop⟩ := rest?_eq_some_iff.mp (rest?_of_at? hlast)
        obtain ⟨between, -, hbetween⟩ :=
          exists_between_of_byteLength_le (hsplit.symm.trans hsplit') (by omega)
        have htext : between = text := by simpa [hbetween] using h
        exact ⟨hle, last.after, by rw [rest?_of_at? hfirst, hbetween, htext], rest?_of_at? hlast⟩
      case isFalse => contradiction
    case h_2 => contradiction
  · intro h
    obtain ⟨hle, rest, hstart, hstop⟩ := h
    obtain ⟨first, hfirst, hrest⟩ := exists_at?_of_rest? hstart
    obtain ⟨last, hlast, rfl⟩ := exists_at?_of_rest? hstop
    simp [slice?, hfirst, hlast, hle, hrest]

theorem slice?_of_rest? (h : source.rest? offset = some (text ++ rest))
    : source.slice? offset (offset + byteLength text) = some text :=
  slice?_eq_some_iff.mpr ⟨by omega, rest, h, rest?_add h⟩

theorem slice?_take (count : Nat) (h : source.rest? offset = some rest)
    : source.slice? offset (offset + byteLength (rest.take count)) = some (rest.take count) := by
  have hsplit : source.rest? offset = some (rest.take count ++ rest.drop count) := by
    rw [List.take_append_drop, h]
  exact slice?_of_rest? hsplit

theorem slice?_self (h : source.slice? start stop = some text)
    : source.slice? stop stop = some [] := by
  obtain ⟨-, rest, -, hstop⟩ := slice?_eq_some_iff.mp h
  exact slice?_eq_some_iff.mpr ⟨Nat.le_refl _, rest, hstop, hstop⟩

/-- Where a slice is not empty, it ends later than it starts, and not past the end, since two
equal offsets have the same rest.
-/
theorem lt_stop_of_slice? (h : source.slice? start stop = some text) (htext : text ≠ [])
    : start < stop ∧ stop ≤ source.size := by
  obtain ⟨-, rest, hstart, hstop⟩ := slice?_eq_some_iff.mp h
  refine ⟨?_, source.le_size_of_isBoundary (isBoundary_of_rest? hstop)⟩
  rcases Nat.lt_or_ge start stop with hlt | hge
  · exact hlt
  · obtain rfl : start = stop := by have := slice?_eq_some_iff.mp h; omega
    have hrest := Option.some.inj (hstart.symm.trans hstop)
    exact absurd (List.append_left_eq_self.mp hrest) htext

/-- A slice ends as many bytes behind its start as its text takes, by counting the bytes of the
rests at both ends.
-/
theorem stop_eq_of_slice? (h : source.slice? start stop = some text)
    : stop = start + byteLength text := by
  obtain ⟨-, rest, hstart, hstop⟩ := slice?_eq_some_iff.mp h
  have hstartSize := source.add_byteLength_of_rest? hstart
  have hstopSize := source.add_byteLength_of_rest? hstop
  rw [byteLength_append] at hstartSize
  omega

/-- Two slices that meet make one, since they share the rest at the offset where they meet. -/
theorem slice?_append {middle : Nat} {text' : List Char}
    (h : source.slice? start middle = some text)
    (h' : source.slice? middle stop = some text')
    : source.slice? start stop = some (text ++ text') := by
  obtain ⟨hle, rest, hstart, hmiddle⟩ := slice?_eq_some_iff.mp h
  obtain ⟨hle', rest', hmiddle', hstop⟩ := slice?_eq_some_iff.mp h'
  have hrest : rest = text' ++ rest' := Option.some.inj (hmiddle.symm.trans hmiddle')
  refine slice?_eq_some_iff.mpr ⟨by omega, rest', ?_, hstop⟩
  rw [hstart, hrest, List.append_assoc]

end Source

end TokenGrammar
