import TokenGrammar.Proofs.Places

/-! Texts as bytes. From a boundary on, a source has the bytes of its rest, and a text is at the
start of the rest if its bytes are at the start of these.
-/

namespace TokenGrammar

/-- The UTF-8 form of the characters. -/
def encoded (chars : List Char) : List UInt8 :=
  chars.flatMap String.utf8EncodeChar

/-- The form of a text is that of its front followed by that of the rest. -/
theorem encoded_append (front rest : List Char)
    : encoded (front ++ rest) = encoded front ++ encoded rest :=
  List.flatMap_append

/-- The form of a text is as long as its characters need bytes, by induction on them. -/
theorem length_encoded (chars : List Char) : (encoded chars).length = byteLength chars := by
  induction chars with
  | nil => rfl
  | cons char rest ih =>
      rw [← List.singleton_append, encoded_append, List.length_append, ih, encoded,
        List.flatMap_singleton, String.length_utf8EncodeChar]
      rfl

/-- The number of bytes of a string is that of its characters, since its bytes are their UTF-8
form.
-/
theorem byteLength_toList (text : String) : byteLength text.toList = text.utf8ByteSize := by
  rw [← length_encoded, ← String.size_toByteArray, ← String.utf8Encode_toList, List.utf8Encode,
    encoded]
  simp

/-- No text has the bytes of another one at its start without having its characters there, since the
form of a character is never the start of that of another one.
-/
theorem encoded_starts_iff {text rest : List Char}
    : encoded text <+: encoded rest ↔ text <+: rest := by
  constructor
  · rintro ⟨bytes, hbytes⟩
    have happend
        : (encoded text).toByteArray ++ bytes.toByteArray = (encoded rest).toByteArray := by
      rw [← List.toByteArray_append, hbytes]
    exact List.isPrefix_of_utf8Encode_append_eq_utf8Encode _ happend
  · rintro ⟨after, rfl⟩
    exact ⟨encoded after, (encoded_append text after).symm⟩

/-- What follows a boundary in bytes are the bytes of the rest, because the bytes in front of it
are the form of the characters in front of it.
-/
theorem Source.drop_encoded {source : Source} {offset : Nat} {rest : List Char}
    (h : source.rest? offset = some rest)
    : (encoded source.chars).drop offset = encoded rest := by
  obtain ⟨front, hsplit, rfl⟩ := rest?_eq_some_iff.mp h
  rw [hsplit, encoded_append, ← length_encoded, List.drop_left]

end TokenGrammar
