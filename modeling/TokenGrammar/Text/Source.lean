import TokenGrammar.Unicode.Space

/-! Source texts and the places in them. Offsets count the bytes of the UTF-8 form, so an offset
may lie past the end of the text or inside of a character; only the others are places.
-/

namespace TokenGrammar

-----------------------------------------------------------------------------------------
-- Texts
-----------------------------------------------------------------------------------------

/-- Number of bytes in the UTF-8 form of the characters. -/
def byteLength : List Char → Nat
  | [] => 0
  | char :: rest => char.utf8Size + byteLength rest

/-- A place between two characters of a text: the character before it, if any, and all
characters after it.
-/
structure Place where
  before : Option Char
  after : List Char
  deriving DecidableEq, Repr

/-- The places of a text by offset, given the character before it. Each character starts at a
place, and there are none inside of it; the last place is the end of the text.
-/
def placesFrom : Option Char → List Char → List (Option Place)
  | before, [] => [some ⟨before, []⟩]
  | before, char :: rest =>
      some ⟨before, char :: rest⟩
        :: (List.replicate (char.utf8Size - 1) none ++ placesFrom (some char) rest)

/-- A text to parse, with a table of its places. -/
structure Source where
  chars : List Char
  places : Array (Option Place)
  places_eq : places = (placesFrom none chars).toArray

/-- The source that consists of the given characters. -/
def Source.ofChars (chars : List Char) : Source :=
  { chars, places := (placesFrom none chars).toArray, places_eq := rfl }

/-- The source that consists of the characters of a string. -/
def Source.ofString (text : String) : Source :=
  .ofChars text.toList

-----------------------------------------------------------------------------------------
-- Offsets
-----------------------------------------------------------------------------------------

/-- Length of the text in bytes, which is the offset of its last place. -/
def Source.size (source : Source) : Nat :=
  source.places.size - 1

/-- The place at an offset, unless it lies past the end or inside of a character. -/
def Source.at? (source : Source) (offset : Nat) : Option Place :=
  source.places[offset]?.join

/-- The offset is the place of some character or of the end of the text. -/
def Source.isBoundary (source : Source) (offset : Nat) : Bool :=
  (source.at? offset).isSome

/-- The characters from one offset up to another, if both are boundaries in this order. -/
def Source.slice? (source : Source) (start stop : Nat) : Option (List Char) :=
  match source.at? start, source.at? stop with
  | some first, some last =>
      if start ≤ stop then some (first.after.take (first.after.length - last.after.length))
      else none
  | _, _ => none

/-- Nothing but white space follows the offset. Of an offset that is no boundary, nothing
follows.
-/
def Source.isBlankFrom (source : Source) (offset : Nat) : Bool :=
  match source.at? offset with
  | some place => place.after.all Unicode.isSpace
  | none => true

-----------------------------------------------------------------------------------------
-- Laws
-----------------------------------------------------------------------------------------

theorem byteLength_cons_pos (char : Char) (rest : List Char)
    : 0 < byteLength (char :: rest) := by
  have := char.utf8Size_pos
  simp only [byteLength]
  omega

/-- The bytes of two texts add up, by induction on the first one. -/
theorem byteLength_append (front rest : List Char)
    : byteLength (front ++ rest) = byteLength front + byteLength rest := by
  induction front with
  | nil => simp [byteLength]
  | cons char front ih => simp only [List.cons_append, byteLength, ih]; omega

/-- There is one more entry in the table of places than there are bytes, by induction on the
text: each character has as many entries as bytes, and the end has one.
-/
theorem length_placesFrom (before : Option Char) (chars : List Char)
    : (placesFrom before chars).length = byteLength chars + 1 := by
  induction chars generalizing before with
  | nil => rfl
  | cons char rest ih =>
      have := char.utf8Size_pos
      simp only [placesFrom, List.length_cons, List.length_append, List.length_replicate, ih,
        byteLength]
      omega

theorem placesFrom_getElem?_zero (before : Option Char) (chars : List Char)
    : (placesFrom before chars)[0]? = some (some ⟨before, chars⟩) := by
  cases chars <;> rfl

/-- There is no place inside of a character, as its entries behind the first one are empty. -/
theorem placesFrom_getElem?_inside {before : Option Char} {char : Char} {rest : List Char}
    {offset : Nat} (hpos : 0 < offset) (hinside : offset < char.utf8Size)
    : (placesFrom before (char :: rest))[offset]? = some none := by
  obtain ⟨offset, rfl⟩ := Nat.exists_eq_add_of_lt hpos
  rw [Nat.zero_add] at hinside ⊢
  have hlt : offset < char.utf8Size - 1 := by omega
  rw [placesFrom, List.getElem?_cons_succ, List.getElem?_append_left (by simpa using hlt),
    List.getElem?_replicate_of_lt hlt]

/-- Past a character, the places are those of the other characters, because its entries come
first.
-/
theorem placesFrom_getElem?_past (before : Option Char) (char : Char) (rest : List Char)
    (offset : Nat)
    : (placesFrom before (char :: rest))[char.utf8Size + offset]?
      = (placesFrom (some char) rest)[offset]? := by
  have hsize := char.utf8Size_pos
  have hsplit : char.utf8Size + offset = (char.utf8Size - 1 + offset) + 1 := by omega
  rw [hsplit, placesFrom, List.getElem?_cons_succ, List.getElem?_append_right (by simp),
    List.length_replicate, Nat.add_sub_cancel_left]

/-- Every split of the text has a place at the offset of its front, by induction on the front.
-/
theorem placesFrom_getElem?_append (before : Option Char) (front after : List Char)
    : (placesFrom before (front ++ after))[byteLength front]?
      = some (some ⟨front.getLast?.or before, after⟩) := by
  induction front generalizing before with
  | nil => exact placesFrom_getElem?_zero before after
  | cons char front ih =>
      rw [List.cons_append, byteLength, placesFrom_getElem?_past, ih]
      cases front with
      | nil => rfl
      | cons head front => simp [List.getLast?_cons]

/-- Every place splits the text at its offset, by induction on the text. -/
theorem exists_split_of_placesFrom {before : Option Char} {chars : List Char} {offset : Nat}
    {place : Place} (h : (placesFrom before chars)[offset]?.join = some place)
    : ∃ front, chars = front ++ place.after ∧ byteLength front = offset := by
  induction chars generalizing before offset with
  | nil =>
      cases offset with
      | zero =>
          obtain rfl : (⟨before, []⟩ : Place) = place := Option.some.inj h
          exact ⟨[], rfl, rfl⟩
      | succ offset => simp [placesFrom] at h
  | cons char rest ih =>
      rcases Nat.eq_zero_or_pos offset with rfl | hpos
      · rw [placesFrom_getElem?_zero] at h
        obtain rfl := Option.some.inj h
        exact ⟨[], rfl, rfl⟩
      · rcases Nat.lt_or_ge offset char.utf8Size with hinside | hpast
        · simp [placesFrom_getElem?_inside hpos hinside] at h
        · obtain ⟨offset, rfl⟩ := Nat.exists_eq_add_of_le hpast
          rw [placesFrom_getElem?_past] at h
          obtain ⟨front, hsplit, hlength⟩ := ih h
          exact ⟨char :: front, by rw [hsplit, List.cons_append], by rw [byteLength, hlength]⟩

/-- An offset has the place that splits the text there into the characters before and after,
since each split has one place and each place comes from a split.
-/
theorem placesFrom_getElem?_join_eq_some_iff {before : Option Char} {chars : List Char}
    {offset : Nat} {place : Place}
    : (placesFrom before chars)[offset]?.join = some place
      ↔ ∃ front, chars = front ++ place.after ∧ byteLength front = offset
          ∧ place.before = front.getLast?.or before := by
  constructor
  · intro h
    obtain ⟨front, hsplit, hlength⟩ := exists_split_of_placesFrom h
    refine ⟨front, hsplit, hlength, ?_⟩
    rw [hsplit, ← hlength, placesFrom_getElem?_append] at h
    exact congrArg Place.before (Option.some.inj h).symm
  · intro h
    obtain ⟨front, hsplit, hlength, hlast⟩ := h
    rw [hsplit, ← hlength, placesFrom_getElem?_append, ← hlast]
    rfl

namespace Source

theorem size_eq (source : Source)
    : source.size = byteLength source.chars := by
  simp [size, source.places_eq, length_placesFrom]

theorem at?_eq_some_iff {source : Source} {offset : Nat} {place : Place}
    : source.at? offset = some place
      ↔ ∃ front, source.chars = front ++ place.after ∧ byteLength front = offset
          ∧ place.before = front.getLast? := by
  simp [at?, source.places_eq, placesFrom_getElem?_join_eq_some_iff]

end Source

end TokenGrammar
