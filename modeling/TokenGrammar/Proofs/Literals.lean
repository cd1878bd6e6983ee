import TokenGrammar.Proofs.Encoding
import TokenGrammar.Proofs.Leaves
import TokenGrammar.Proofs.Lowercase

/-! What literals stand for. An exact literal is compared with as many characters as it has, which
finds it where the source has its bytes. A literal in any case is compared with as many characters
as its lowercase form has. For ASCII characters this is a comparison character by character, but it
takes too many characters where the form is longer than the literal.
-/

namespace TokenGrammar.Literal

open Unicode

variable {α : Type} {text : String} {source : Source} {index : Nat} {token : Token α}
  {sample rest : List Char}

-----------------------------------------------------------------------------------------
-- Samples
-----------------------------------------------------------------------------------------

/-- A sample stands for an exact literal if it has its characters. -/
theorem exact_accepts_iff : (exact text).accepts sample ↔ sample = text.toList := by
  simp [accepts, exact]

/-- A sample stands for a literal in any case if both have the same lowercase form. -/
theorem anyCase_accepts_iff
    : (anyCase text).accepts sample ↔ lowercase sample = lowercase text.toList := by
  simp [accepts, anyCase]

/-- The sample for a literal in any case has one more character for each dotted capital I, since
it is as long as the lowercase form.
-/
theorem length_anyCase (text : String)
    : (anyCase text).text.length = text.toList.length + text.toList.count 'İ' := by
  rw [anyCase, String.length_ofList, lowercase, length_lowercaseAfter]

/-- The token of a literal for which the sample stands. -/
def tokenOf (index : Nat) (sample : List Char) : Token α :=
  { index
    size := byteLength sample
    kind := .named "text"
    value := .text (String.ofList sample) }

/-- At a boundary, a literal reads the sample if that stands for it, since there is one rest
only.
-/
theorem reads_iff_of_rest? {literal : Literal} (hrest : source.rest? index = some rest)
    : literal.parser.Reads source index token
      ↔ literal.accepts (rest.take literal.text.length)
        ∧ tokenOf index (rest.take literal.text.length) = token := by
  rw [reads_iff]
  constructor
  · rintro ⟨rest', hrest', haccepts, rfl⟩
    obtain rfl : rest = rest' := Option.some.inj (hrest.symm.trans hrest')
    exact ⟨haccepts, rfl⟩
  · rintro ⟨haccepts, rfl⟩
    exact ⟨rest, hrest, haccepts, rfl⟩

/-- What a literal reads is a sample that stands for it, at a boundary. -/
theorem exists_sample_of_reads {literal : Literal}
    (h : literal.parser.Reads source index token)
    : ∃ sample after,
        source.rest? index = some (sample ++ after)
        ∧ literal.accepts sample
        ∧ tokenOf index sample = token := by
  obtain ⟨rest, hrest, haccepts, rfl⟩ := reads_iff.mp h
  refine ⟨_, rest.drop literal.text.length, ?_, haccepts, rfl⟩
  rw [List.take_append_drop, hrest]

/-- A literal that reads nothing at an offset fails there, since no sample stands for it. -/
theorem exists_mismatch_of_not_reads {literal : Literal}
    (h : ∀ token : Token α, ¬ literal.parser.Reads source index token)
    : ∃ cause, (literal.parser : Parser α).Fails source index (.mismatch cause index) := by
  cases hrest : source.rest? index with
  | none => exact ⟨_, fails_of_rest?_eq_none literal hrest⟩
  | some rest =>
      refine ⟨_, fails_iff.mpr (Or.inr ⟨rest, hrest, fun haccepts => ?_, rfl⟩)⟩
      exact h _ ((reads_iff_of_rest? hrest).mpr ⟨haccepts, rfl⟩)

/-- An exact literal reads its own text, since no other sample stands for it. -/
theorem exact_reads_iff
    : (exact text).parser.Reads source index token
      ↔ ∃ after,
          source.rest? index = some (text.toList ++ after) ∧ tokenOf index text.toList = token := by
  constructor
  · intro h
    obtain ⟨sample, after, hrest, haccepts, rfl⟩ := exists_sample_of_reads h
    obtain rfl := exact_accepts_iff.mp haccepts
    exact ⟨after, hrest, rfl⟩
  · rintro ⟨after, hrest, rfl⟩
    have htake : (text.toList ++ after).take (exact text).text.length = text.toList := by
      rw [exact, ← String.length_toList, List.take_left]
    rw [reads_iff_of_rest? hrest, htake, exact_accepts_iff]
    exact ⟨rfl, rfl⟩

-----------------------------------------------------------------------------------------
-- Exact literals
-----------------------------------------------------------------------------------------

/-- Of all texts at the start of the characters that have no more than so many characters, the
sample is the longest one.
-/
structure IsSample (count : Nat) (chars sample : List Char) : Prop where
  starts : sample <+: chars
  length_le : sample.length ≤ count
  longest : ∀ other : List Char, other <+: chars → other.length ≤ count → other <+: sample

/-- The longest text of no more characters is what is taken of so many, because texts at the
start of the same characters start one another.
-/
theorem isSample_iff {count : Nat} : IsSample count rest sample ↔ sample = rest.take count := by
  have htake (other : List Char) (hstarts : other <+: rest) (hlength : other.length ≤ count)
      : other <+: rest.take count :=
    List.prefix_take_iff.mpr ⟨hstarts, hlength⟩
  constructor
  · rintro ⟨hstarts, hlength, hlongest⟩
    have hlonger := hlongest (rest.take count) (List.take_prefix ..) (List.length_take_le ..)
    exact (htake sample hstarts hlength).eq_of_length_le hlonger.length_le
  · rintro rfl
    exact ⟨List.take_prefix .., List.length_take_le .., htake⟩

/-- At a boundary, the source has the bytes of a text if it has the characters, for the bytes
from there on are those of the rest.
-/
theorem encoded_starts_drop_iff (hrest : source.rest? index = some rest)
    : encoded text.toList <+: (encoded source.chars).drop index ↔ text.toList <+: rest := by
  rw [source.drop_encoded hrest, encoded_starts_iff]

/-- At a boundary, the sample of an exact literal is the literal if the source has its characters.
-/
theorem exact_accepts_take_iff
    : (exact text).accepts (rest.take (exact text).text.length) ↔ text.toList <+: rest := by
  rw [exact_accepts_iff, exact, ← String.length_toList, eq_comm, List.prefix_iff_eq_take]

/-- An exact literal is found at the boundaries of the source from which on the bytes are those of
the literal. The token takes as many bytes as the literal and holds it. Elsewhere the literal fails
with a mismatch at the offset, and at a boundary it reports the longest text there that has no more
characters than the literal. One of the two is always the case.
-/
theorem exact_found_where_bytes_are (text : String) (source : Source) (index : Nat)
    : (∀ token : Token α,
        (exact text).parser.Reads source index token
        ↔ source.isBoundary index
          ∧ encoded text.toList <+: (encoded source.chars).drop index
          ∧ token = ⟨index, text.utf8ByteSize, .named "text", .text text⟩)
      ∧ (∀ error,
        ((exact text).parser : Parser α).Fails source index error
        ↔ ¬ source.isBoundary index ∧ error = .mismatch (.invalidOffset source.size) index
          ∨ ∃ rest found,
              source.rest? index = some rest
              ∧ ¬ encoded text.toList <+: (encoded source.chars).drop index
              ∧ IsSample text.length rest found
              ∧ error = .mismatch (.literal text (String.ofList found)) index)
      ∧ ((∃ token : Token α, (exact text).parser.Reads source index token)
        ∨ ∃ error, ((exact text).parser : Parser α).Fails source index error) := by
  have htoken : (tokenOf index text.toList : Token α)
      = ⟨index, text.utf8ByteSize, .named "text", .text text⟩ := by
    rw [tokenOf, byteLength_toList, String.ofList_toList]
  refine ⟨?_, ?_, Parser.reads_or_fails outcome_ne_unresolved⟩
  · intro token
    rw [exact_reads_iff, htoken]
    constructor
    · rintro ⟨after, hrest, rfl⟩
      have hstarts := (encoded_starts_drop_iff hrest).mpr ⟨after, rfl⟩
      exact ⟨Source.isBoundary_of_rest? hrest, hstarts, rfl⟩
    · rintro ⟨hboundary, hstarts, rfl⟩
      obtain ⟨rest, hrest⟩ := Source.isBoundary_iff.mp hboundary
      obtain ⟨after, rfl⟩ := (encoded_starts_drop_iff hrest).mp hstarts
      exact ⟨after, hrest, rfl⟩
  · intro error
    rw [fails_iff]
    refine or_congr ?_ (exists_congr fun rest => ?_)
    · rw [Source.not_isBoundary_iff, eq_comm (a := error)]
    · constructor
      · rintro ⟨hrest, hrejects, rfl⟩
        rw [exact_accepts_take_iff, ← encoded_starts_drop_iff hrest] at hrejects
        exact ⟨_, hrest, hrejects, isSample_iff.mpr rfl, rfl⟩
      · rintro ⟨found, hrest, hdiffers, hsample, rfl⟩
        obtain rfl := isSample_iff.mp hsample
        rw [encoded_starts_drop_iff hrest, ← exact_accepts_take_iff] at hdiffers
        exact ⟨hrest, hdiffers, rfl⟩

/-- At the end of `xé`, the sample for a literal of two characters has only one. -/
example
    : ((exact "éa").parser : Parser Unit).Fails (Source.ofString "xé") 1
        (.mismatch (.literal "éa" "é") 1) :=
  rfl

-----------------------------------------------------------------------------------------
-- Literals that are found exactly
-----------------------------------------------------------------------------------------

/-- A literal with more behind it only stands for the literal in any case if that is nothing. -/
theorem anyCase_accepts_append_iff {extra : List Char}
    : (anyCase text).accepts (text.toList ++ extra) ↔ extra = [] := by
  rw [anyCase_accepts_iff, lowercase_append_eq_self_iff]

/-- Where a literal is found exactly, it is also found in any case, and as the same token, if it has
no dotted capital I or the source ends behind it. Elsewhere the sample takes characters from behind
the literal, and the literal is not found in any case.
-/
theorem anyCase_reads_iff_of_exact_reads (h : (exact text).parser.Reads source index token)
    : ((anyCase text).parser.Reads source index token
        ↔ 'İ' ∉ text.toList ∨ token.stop = source.size)
      ∧ (¬ ('İ' ∉ text.toList ∨ token.stop = source.size)
        → ∃ cause,
            ((anyCase text).parser : Parser α).Fails source index (.mismatch cause index)) := by
  obtain ⟨after, hrest, rfl⟩ := exact_reads_iff.mp h
  have hsample : (text.toList ++ after).take (anyCase text).text.length
      = text.toList ++ after.take (text.toList.count 'İ') := by
    rw [length_anyCase, List.take_length_add_append]
  have hend : (tokenOf index text.toList : Token α).stop = source.size ↔ after = [] :=
    source.eq_size_iff_of_rest? (source.rest?_add hrest)
  have hextra : after.take (text.toList.count 'İ') = []
      ↔ 'İ' ∉ text.toList ∨ (tokenOf index text.toList : Token α).stop = source.size := by
    rw [List.take_eq_nil_iff, List.count_eq_zero, hend]
  have hreads (token : Token α) : (anyCase text).parser.Reads source index token
      ↔ after.take (text.toList.count 'İ') = []
        ∧ tokenOf index (text.toList ++ after.take (text.toList.count 'İ')) = token := by
    rw [reads_iff_of_rest? hrest, hsample, anyCase_accepts_append_iff]
  rw [← hextra]
  constructor
  · rw [hreads, and_iff_left_iff_imp]
    intro hnil
    rw [hnil, List.append_nil]
  · intro hne
    exact exists_mismatch_of_not_reads fun token hreads' => hne ((hreads token).mp hreads').1

/-- At the end of `xİ`, the literal `İ` is found in any case. -/
theorem dottedCapitalI_reads_at_end
    : let source := Source.ofString "xİ"
      let token : Token Unit := tokenOf 1 ['İ']
      (exact "İ").parser.Reads source 1 token
      ∧ token.stop = source.size
      ∧ (anyCase "İ").parser.Reads source 1 token := by
  intro source token
  have hexact : (exact "İ").parser.Reads source 1 token := rfl
  have hend : token.stop = source.size := rfl
  exact ⟨hexact, hend, (anyCase_reads_iff_of_exact_reads hexact).1.mpr (Or.inr hend)⟩

/-- At the start of `İx`, the literal `İ` is found exactly, but not in any case: the sample is both
characters, as the lowercase form of the literal has two.
-/
theorem dottedCapitalI_fails_before_x
    : let source := Source.ofString "İx"
      let token : Token Unit := tokenOf 0 ['İ']
      (exact "İ").parser.Reads source 0 token
      ∧ ((anyCase "İ").parser : Parser Unit).Fails source 0
          (.mismatch (.literal "i\u0307" "İx") 0) :=
  ⟨rfl, rfl⟩

-----------------------------------------------------------------------------------------
-- ASCII literals in any case
-----------------------------------------------------------------------------------------

/-- The sample for an ASCII literal has as many characters as the literal, which has no dotted
capital I.
-/
theorem length_anyCase_of_isAscii (hascii : ∀ char ∈ text.toList, IsAscii char)
    : (anyCase text).text.length = text.toList.length := by
  have hcount : text.toList.count 'İ' = 0 :=
    List.count_eq_zero.mpr fun hmem => absurd (hascii 'İ' hmem) (by decide)
  rw [length_anyCase, hcount, Nat.add_zero]

/-- A sample stands for an ASCII literal in any case if it does so character by character, since
no form depends on what is around it.
-/
theorem anyCase_accepts_iff_of_isAscii (hascii : ∀ char ∈ text.toList, IsAscii char)
    : (anyCase text).accepts sample ↔ List.Forall₂ SameLowercase sample text.toList := by
  rw [anyCase_accepts_iff]
  exact lowercaseAfter_eq_lowercase_iff hascii

/-- An ASCII literal in any case is found exactly at the boundaries of the source that are followed
by as many characters as it has, each of which has, on its own, the lowercase form of the character
in its place. The token covers these characters and holds them as they are in the source. Elsewhere
the literal fails with a mismatch at the offset.
-/
theorem anyCase_reads_iff_of_isAscii (hascii : ∀ char ∈ text.toList, IsAscii char)
    (source : Source) (index : Nat)
    : (∀ token : Token α,
        (anyCase text).parser.Reads source index token
        ↔ ∃ sample after,
            source.rest? index = some (sample ++ after)
            ∧ sample.length = text.length
            ∧ List.Forall₂ SameLowercase sample text.toList
            ∧ tokenOf index sample = token)
      ∧ ((∀ sample after,
          source.rest? index = some (sample ++ after)
          → ¬ List.Forall₂ SameLowercase sample text.toList)
        → ∃ cause,
            ((anyCase text).parser : Parser α).Fails source index (.mismatch cause index)) := by
  refine ⟨fun token => ⟨fun h => ?_, ?_⟩, fun hnone => ?_⟩
  · obtain ⟨sample, after, hrest, haccepts, htoken⟩ := exists_sample_of_reads h
    have hsame := (anyCase_accepts_iff_of_isAscii hascii).mp haccepts
    exact ⟨sample, after, hrest, hsame.length_eq.trans String.length_toList, hsame, htoken⟩
  · rintro ⟨sample, after, hrest, -, hsame, htoken⟩
    have htake : (sample ++ after).take (anyCase text).text.length = sample := by
      rw [length_anyCase_of_isAscii hascii, ← hsame.length_eq, List.take_left]
    rw [reads_iff_of_rest? hrest, htake, anyCase_accepts_iff_of_isAscii hascii]
    exact ⟨hsame, htoken⟩
  · refine exists_mismatch_of_not_reads fun token h => ?_
    obtain ⟨sample, after, hrest, haccepts, -⟩ := exists_sample_of_reads h
    exact hnone sample after hrest ((anyCase_accepts_iff_of_isAscii hascii).mp haccepts)

/-- In `aoK!`, of which the third character is the sign for kelvin, the literal `OK` is found behind
the first character. The token takes four bytes for its two characters.
-/
theorem kelvin_reads_in_any_case
    : let source := Source.ofString "ao\u212A!"
      let token : Token Unit := ⟨1, 4, .named "text", .text "o\u212A"⟩
      (∀ char ∈ "OK".toList, IsAscii char)
      ∧ List.Forall₂ SameLowercase ['o', '\u212A'] "OK".toList
      ∧ (anyCase "OK").parser.Reads source 1 token := by
  intro source token
  have hascii : ∀ char ∈ "OK".toList, IsAscii char := by
    simp [IsAscii]
  have hsame : List.Forall₂ SameLowercase ['o', '\u212A'] "OK".toList :=
    .cons rfl (.cons rfl .nil)
  refine ⟨hascii, hsame, ?_⟩
  exact ((anyCase_reads_iff_of_isAscii hascii source 1).1 token).mpr
    ⟨['o', '\u212A'], ['!'], rfl, rfl, hsame, rfl⟩

end TokenGrammar.Literal
