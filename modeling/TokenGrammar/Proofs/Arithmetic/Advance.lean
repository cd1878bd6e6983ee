import Mathlib.Data.List.DropRight
import TokenGrammar.Proofs.Arithmetic.Lexemes
import TokenGrammar.Proofs.Arithmetic.Rules

/-! How the patterns of arithmetic expressions lead on from one place of a source to the next.
White space between two parts of an expression belongs to the pattern of a sign or a mark next to
it, so places are compared up to white space.
-/

namespace TokenGrammar.Arithmetic

open Regex (CharSet)

variable {source : Source} {index : Nat} {chars rest : List Char}

/-- The source goes on with the characters, but the white space in front of them is left out. -/
def Starts (source : Source) (index : Nat) (chars : List Char) : Prop :=
  source.rest? index = some (chars.dropWhile Unicode.isSpace)

/-- The source goes on with the characters, up to white space in front of them. -/
def Reaches (source : Source) (index : Nat) (chars : List Char) : Prop :=
  ∃ tail,
    source.rest? index = some tail
    ∧ tail.dropWhile Unicode.isSpace = chars.dropWhile Unicode.isSpace

/-- If the characters do not end, they go on with one of these, apart from white space. -/
def Follows (signs chars : List Char) : Prop :=
  ∀ char ∈ (chars.dropWhile Unicode.isSpace).head?, char ∈ signs

theorem Follows.sum_of_closers (h : Follows closers chars)
    : Follows Level.sum.followers chars := by
  intro char hchar
  exact List.mem_cons_of_mem _ (h char hchar)

theorem Follows.product_of_sum (h : Follows Level.sum.followers chars)
    : Follows Level.product.followers chars := by
  intro char hchar
  exact List.mem_append_left _ (h char hchar)

theorem Follows.marks_of_product (h : Follows Level.product.followers chars)
    : Follows marks chars := by
  intro char hchar
  exact List.mem_append_left _ (h char hchar)

/-- Behind a blank, a sign is what follows, since it is no white space itself. -/
theorem follows_cons {gap signs : List Char} {sign : Char} (hgap : IsBlank gap)
    (hsign : ¬ Unicode.isSpace sign) (hmem : sign ∈ signs)
    : Follows signs (gap ++ sign :: chars) := by
  intro char hchar
  rw [dropWhile_isSpace_append hgap (isTrimmed_cons hsign)] at hchar
  obtain rfl := Option.some.inj hchar
  exact hmem

theorem follows_sum_operator {gap : List Char} (hgap : IsBlank gap) (operator : Operator .sum)
    : Follows Level.product.followers (gap ++ operator.sign :: chars) :=
  follows_cons hgap (Level.not_isSpace_of_mem_operators operator.mem_operators)
    (List.mem_append_right _ operator.mem_operators)

theorem follows_product_operator {gap : List Char} (hgap : IsBlank gap)
    (operator : Operator .product)
    : Follows marks (gap ++ operator.sign :: chars) :=
  follows_cons hgap (Level.not_isSpace_of_mem_operators operator.mem_operators)
    (List.mem_append_right _ operator.mem_operators)

/-- What follows an atom separates it from what comes then, by cases on whether there is white
space in between.
-/
theorem Follows.separates (h : Follows marks chars) : ∀ char ∈ chars.head?, Separates char := by
  intro char hchar
  by_cases hspace : Unicode.isSpace char
  · exact separates_of_isSpace hspace
  · refine separates_of_mem_marks (h char ?_)
    obtain ⟨others, rfl⟩ := List.head?_eq_some_iff.mp hchar
    rw [List.dropWhile_cons_of_neg hspace]
    rfl

theorem starts_append_iff {gap : List Char} (hgap : IsBlank gap)
    : Starts source index (gap ++ chars) ↔ Starts source index chars := by
  rw [Starts, Starts, List.dropWhile_append_of_pos hgap]

/-- A source that starts with characters has them as its rest, unless the first one is white
space.
-/
theorem rest?_of_starts {char : Char} (h : Starts source index (char :: chars))
    (hchar : ¬ Unicode.isSpace char)
    : source.rest? index = some (char :: chars) := by
  rwa [Starts, List.dropWhile_cons_of_neg hchar] at h

/-- A source that starts with a literal has it in its rest, for literals start with a digit. -/
theorem rest?_of_starts_numeral {numeral : Numeral}
    (h : Starts source index (numeral.render ++ rest))
    : source.rest? index = some (numeral.render ++ rest) := by
  obtain ⟨first, more, hrender, hfirst⟩ := numeral.exists_render_eq_cons
  rw [hrender] at h ⊢
  exact rest?_of_starts h hfirst.2.2

/-- A source that starts with a name has it in its rest, for names start with a letter or an
underscore.
-/
theorem rest?_of_starts_name {name : Name} (h : Starts source index (name.render ++ rest))
    : source.rest? index = some (name.render ++ rest) :=
  rest?_of_starts h (startsName_of_isAlpha name.head_isStart).2.2

theorem Starts.reaches (h : Starts source index chars) : Reaches source index chars :=
  ⟨_, h, List.dropWhile_idempotent _ _⟩

theorem reaches_of_rest? (h : source.rest? index = some chars) : Reaches source index chars :=
  ⟨chars, h, rfl⟩

theorem le_size_of_starts (h : Starts source index chars) : index ≤ source.size :=
  source.le_size_of_isBoundary (source.isBoundary_of_rest? h)

theorem Reaches.append {gap : List Char} (hgap : IsBlank gap)
    (h : Reaches source index chars)
    : Reaches source index (gap ++ chars) := by
  obtain ⟨tail, hrest, htail⟩ := h
  exact ⟨tail, hrest, by rw [htail, List.dropWhile_append_of_pos hgap]⟩

section Frames

variable {pattern : Pattern} {set : CharSet} {spansAt : Nat → List (Nat × Span)}

/-- A framed character is read with all white space around it, since the pattern takes what
there is of that on both sides.
-/
theorem Frames.exists_reads (h : Frames pattern set spansAt) {gap : List Char} {char : Char}
    (hgap : IsBlank gap) (hchar : set.contains char)
    (hreach : Reaches source index (gap ++ char :: chars))
    : ∃ before after rest,
        let token : Tree :=
          pattern.tokenOf index (before ++ char :: after) rest (spansAt before.length)
        pattern.parser.Reads source index token
        ∧ index < token.stop
        ∧ Starts source token.stop chars := by
  obtain ⟨tail, hrest, htail⟩ := hreach
  have htrimmed : IsTrimmed (char :: chars) := isTrimmed_cons (h.visible char hchar)
  rw [dropWhile_isSpace_append hgap htrimmed] at htail
  have hsplit
      : source.rest? index
        = some
            (tail.takeWhile Unicode.isSpace ++ char :: chars.takeWhile Unicode.isSpace
              ++ chars.dropWhile Unicode.isSpace) := by
    rw [List.append_assoc, List.cons_append, List.takeWhile_append_dropWhile, ← htail,
      List.takeWhile_append_dropWhile, hrest]
  have htakes := h.takes (isBlank_takeWhile tail) hchar (isBlank_takeWhile chars)
    (isTrimmed_dropWhile chars)
  refine ⟨_, _, _, Pattern.reads_of_takes htakes hsplit, ?_, source.rest?_add hsplit⟩
  have hpos := byteLength_cons_pos char (chars.takeWhile Unicode.isSpace)
  rw [stop_tokenOf, byteLength_append]
  omega

/-- A framed character is missed where another one comes after white space, for its pattern
refuses that.
-/
theorem Frames.exists_fails (h : Frames pattern set spansAt)
    (hreach : Reaches source index chars)
    (hchars : ∀ char ∈ (chars.dropWhile Unicode.isSpace).head?, ¬ set.contains char)
    : ∃ error, (pattern.parser : Parser Node).Fails source index error := by
  obtain ⟨tail, hrest, htail⟩ := hreach
  rw [← htail] at hchars
  exact ⟨_, Pattern.fails_of_refuses (h.refuses hchars) hrest⟩

end Frames

section Signs

variable {gap : List Char}

/-- A mark is read with the white space around it, as the one member of its set. -/
theorem exists_mark_reads {written : String} {mark : Char} (hmark : ¬ Unicode.isSpace mark)
    (hgap : IsBlank gap) (hreach : Reaches source index (gap ++ mark :: chars))
    : ∃ token : Tree,
        (markPattern written mark).parser.Reads source index token
        ∧ index < token.stop
        ∧ Starts source token.stop chars := by
  obtain ⟨before, after, rest, hreads, hlt, hstarts⟩ :=
    (markPattern_frames written hmark).exists_reads hgap
      (Regex.CharSet.contains_single_iff.mpr rfl) hreach
  exact ⟨_, hreads, hlt, hstarts⟩

theorem exists_mark_fails {written : String} {mark : Char} {signs : List Char}
    (hmark : ¬ Unicode.isSpace mark) (hreach : Reaches source index chars)
    (hfollows : Follows signs chars) (hnot : mark ∉ signs)
    : ∃ error, ((markPattern written mark).parser : Parser Node).Fails source index error := by
  refine (markPattern_frames written hmark).exists_fails hreach ?_
  intro char hchar hcontains
  obtain rfl := Regex.CharSet.contains_single_iff.mp hcontains
  exact hnot (hfollows char hchar)

/-- An operator of a level is read with the white space around it, and captured. -/
theorem Level.exists_reads {level : Level} {operator : Char}
    (hmem : operator ∈ level.operators) (hgap : IsBlank gap)
    (hreach : Reaches source index (gap ++ operator :: chars))
    : ∃ token : Tree,
        level.pattern.parser.Reads source index token
        ∧ capturedOperator? token = some operator
        ∧ index < token.stop
        ∧ Starts source token.stop chars := by
  obtain ⟨before, after, rest, hreads, hlt, hstarts⟩ :=
    level.pattern_frames.exists_reads hgap (Level.contains_signs_iff.mpr hmem) hreach
  exact ⟨_, hreads, capturedOperator?_tokenOf, hlt, hstarts⟩

/-- An operator of a level is missed where a chain of it ends, for what follows a chain is none.
-/
theorem Level.exists_fails {level : Level} (hreach : Reaches source index chars)
    (hfollows : Follows level.followers chars)
    : ∃ error, (level.pattern.parser : Parser Node).Fails source index error := by
  refine level.pattern_frames.exists_fails hreach ?_
  intro char hchar hcontains
  exact Level.not_mem_operators_of_mem_followers (hfollows char hchar)
    (Level.contains_signs_iff.mp hcontains)

end Signs

end TokenGrammar.Arithmetic
