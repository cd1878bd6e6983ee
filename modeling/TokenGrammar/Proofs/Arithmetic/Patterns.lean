import TokenGrammar.Proofs.Arithmetic.Levels
import TokenGrammar.Proofs.Leaves
import TokenGrammar.Proofs.Regex.Greedy

/-! What the patterns of arithmetic expressions match. A sign or a mark takes all the white space
on both of its sides, so that what follows it never starts with white space.
-/

namespace TokenGrammar.Arithmetic

open Regex (CharSet Cursor)

/-- The characters are white space. -/
def IsBlank (chars : List Char) : Prop :=
  ∀ char ∈ chars, Unicode.isSpace char

/-- The characters are at their end or go on with something else than white space. -/
def IsTrimmed (chars : List Char) : Prop :=
  ∀ char ∈ chars.head?, ¬ Unicode.isSpace char

/-- The text is this character with white space around it. -/
def Framed (char : Char) (text : List Char) : Prop :=
  ∃ before after, text = before ++ char :: after ∧ IsBlank before ∧ IsBlank after

theorem isTrimmed_cons {char : Char} {rest : List Char} (hchar : ¬ Unicode.isSpace char)
    : IsTrimmed (char :: rest) := by
  intro head hhead
  obtain rfl := Option.some.inj hhead
  exact hchar

theorem isTrimmed_nil : IsTrimmed [] := by
  simp [IsTrimmed]

theorem isBlank_nil : IsBlank [] := by
  simp [IsBlank]

theorem isBlank_takeWhile (chars : List Char) : IsBlank (chars.takeWhile Unicode.isSpace) := by
  intro char hchar
  exact List.mem_takeWhile_imp hchar

theorem isTrimmed_dropWhile (chars : List Char)
    : IsTrimmed (chars.dropWhile Unicode.isSpace) := by
  intro char hchar
  have hnot := List.head?_dropWhile_not Unicode.isSpace chars
  rw [Option.mem_def.mp hchar] at hnot
  simpa using hnot

/-- White space in front of trimmed characters is all that is left out of both. -/
theorem dropWhile_isSpace_append {gap chars : List Char} (hgap : IsBlank gap)
    (hchars : IsTrimmed chars)
    : (gap ++ chars).dropWhile Unicode.isSpace = chars := by
  rw [List.dropWhile_append_of_pos hgap]
  cases chars with
  | nil => rfl
  | cons char rest =>
      have hchar := hchars char rfl
      exact List.dropWhile_cons_of_neg hchar

theorem rest?_trimmed (source : Source)
    : source.rest? (byteLength (source.chars.takeWhile Unicode.isSpace))
      = some (source.chars.dropWhile Unicode.isSpace) :=
  source.rest?_eq_some_iff.mpr ⟨_, List.takeWhile_append_dropWhile.symm, rfl⟩

/-- The regular expression matches a single character of the set. If so many characters were
passed before, it records these spans.
-/
def MatchesOne (body : Regex) (set : CharSet) (spansAt : Nat → List (Nat × Span))
    : Prop :=
  ∀ cursor next,
    body.run cursor next
    = (Regex.oneOf set).run cursor fun reached =>
        next { reached with spans := spansAt cursor.passed ++ cursor.spans }

theorem matchesOne_oneOf (set : CharSet) : MatchesOne (.oneOf set) set fun _ => [] :=
  fun _ _ => Regex.run_oneOf_congr fun _ _ => rfl

/-- A group around a set matches one of its characters, and records a span of one character,
since that is what has been passed when it is left.
-/
theorem matchesOne_capture (set : CharSet)
    : MatchesOne (.capture 1 none (.oneOf set)) set fun passed =>
        [(1, ⟨passed, passed + 1⟩)] := by
  intro cursor next
  rw [Regex.run_capture]
  exact Regex.run_oneOf_congr fun _ _ => rfl

/-- A regular expression with any amount of white space on both sides. -/
def framed (body : Regex) : Regex :=
  .sequence [blank, body, blank]

/-- The pattern is one character of a set, none of them white space, with all white space around
it. The spans it records are given by the number of characters before that character.
-/
structure Frames (pattern : Pattern) (set : CharSet)
    (spansAt : Nat → List (Nat × Span)) : Prop where
  matchesOne : ∃ body, pattern.matcher = (framed body).matcher ∧ MatchesOne body set spansAt
  visible : ∀ char, set.contains char → ¬ Unicode.isSpace char

namespace Frames

variable {pattern : Pattern} {set : CharSet} {spansAt : Nat → List (Nat × Span)}

/-- The white space in front is taken at once, because no other part of the pattern can take any
of it.
-/
theorem match?_eq (h : Frames pattern set spansAt) (place : Place)
    : pattern.matcher.match? place
      = ((Regex.oneOf set).run ((Cursor.start place).beyond .space) fun reached =>
            some
              (Cursor.beyond
                { reached with spans := spansAt ((Cursor.start place).beyond .space).passed }
                .space)).map
          Cursor.found := by
  obtain ⟨body, hmatcher, hbody⟩ := h.matchesOne
  have hback (reached : Cursor)
      : (Regex.zeroOrMore (.oneOf .space)).run reached some = some (reached.beyond .space) :=
    Regex.run_zeroOrMore_eq_some rfl
  have hrun
      : pattern.matcher.match? place
        = ((Regex.zeroOrMore (.oneOf .space)).run (.start place) fun reached =>
              body.run reached fun reached => some (reached.beyond .space)).map
            Cursor.found := by
    rw [hmatcher]
    simp only [← hback]
    rfl
  rw [hrun, Regex.run_zeroOrMore_eq_next, hbody]
  · simp [Cursor.beyond]
  · intro reached hspace
    obtain ⟨char, hhead, hchar⟩ := hspace
    obtain ⟨rest, hafter⟩ := List.head?_eq_some_iff.mp hhead
    have hnot : set.contains char = false := by
      by_contra hset
      exact h.visible char (by simpa using hset) hchar
    rw [hbody, Regex.run_oneOf_cons hafter, hnot]
    rfl

/-- All white space around a character of the set is taken with it: what is in front at once,
and what is behind up to the rest, which is trimmed.
-/
theorem takes (h : Frames pattern set spansAt) {before after rest : List Char} {char : Char}
    (hbefore : IsBlank before) (hchar : set.contains char) (hafter : IsBlank after)
    (hrest : IsTrimmed rest)
    : pattern.matcher.Takes (before ++ char :: after) rest (spansAt before.length) := by
  intro place hplace
  rw [h.match?_eq]
  have hstart
      : (Cursor.start place).beyond .space
        = (Cursor.start place).past before (char :: (after ++ rest)) :=
    Cursor.beyond_eq_past (by simpa using hplace) hbefore
      (isTrimmed_cons (h.visible char hchar))
  have hlast (reached : Cursor) (hreached : reached.place.after = after ++ rest)
      : reached.beyond .space = reached.past after rest :=
    Cursor.beyond_eq_past hreached hafter hrest
  rw [hstart, Regex.run_oneOf_cons rfl, if_pos hchar, hlast _ rfl]
  simp [Cursor.found, Cursor.past]
  omega

/-- What the pattern takes is a character of the set with white space around it, by running it
from its start.
-/
theorem exists_of_match? (h : Frames pattern set spansAt) {place : Place} {found : Match}
    (hmatch : pattern.matcher.match? place = some found)
    : ∃ before char after rest,
        place.after = before ++ char :: after ++ rest
        ∧ IsBlank before
        ∧ set.contains char
        ∧ IsBlank after
        ∧ found.passed = (before ++ char :: after).length
        ∧ found.spans = spansAt before.length := by
  rw [h.match?_eq] at hmatch
  obtain ⟨before, tail, hplace, hbefore, -, hbeyond⟩ :=
    (Cursor.start place).exists_beyond_eq .space
  rw [hbeyond] at hmatch
  cases tail with
  | nil =>
      rw [Regex.run_oneOf_nil rfl] at hmatch
      contradiction
  | cons char tail =>
      rw [Regex.run_oneOf_cons rfl] at hmatch
      split at hmatch
      case isTrue hchar =>
        obtain ⟨after, rest, htail, hafter, -, hlast⟩ :=
          Cursor.exists_beyond_eq
            { ((Cursor.start place).past before (char :: tail)).past [char] tail with
              spans := spansAt ((Cursor.start place).past before (char :: tail)).passed }
            .space
        rw [hlast] at hmatch
        obtain rfl := Option.some.inj hmatch
        have hsplit : tail = after ++ rest := htail
        refine ⟨before, char, after, rest, ?_, hbefore, hchar, hafter, ?_, ?_⟩
        · simpa [hsplit] using hplace
        · simp [Cursor.found, Cursor.past]
          omega
        · simp [Cursor.found, Cursor.past]
      case isFalse => contradiction

/-- The pattern spells a character of the set with white space around it, as what it takes shows. -/
theorem spells (h : Frames pattern set spansAt)
    : pattern.matcher.Spells fun text => ∃ char, set.contains char ∧ Framed char text := by
  intro place found hmatch
  obtain ⟨before, char, after, rest, hsplit, hbefore, hchar, hafter, hpassed, -⟩ :=
    h.exists_of_match? hmatch
  exact ⟨before ++ char :: after, rest, hsplit, hpassed, char, hchar, before, after, rfl, hbefore,
    hafter⟩

/-- The pattern refuses characters that do not go on with one of the set after white space,
because what it takes would be such a text.
-/
theorem refuses (h : Frames pattern set spansAt) {chars : List Char}
    (hchars : ∀ char ∈ (chars.dropWhile Unicode.isSpace).head?, ¬ set.contains char)
    : pattern.matcher.Refuses chars := by
  refine Pattern.refuses_of_spells h.spells ?_
  rintro _ rest hsplit ⟨char, hchar, before, after, rfl, hbefore, -⟩
  have hdrop : chars.dropWhile Unicode.isSpace = char :: (after ++ rest) := by
    rw [hsplit, List.append_assoc]
    exact dropWhile_isSpace_append hbefore (isTrimmed_cons (h.visible char hchar))
  exact hchars char (by simp [hdrop]) hchar

/-- A token of the pattern covers a character of the set with white space around it, since that
is what its matcher finds.
-/
theorem exists_of_reads {α : Type} {source : Source} {index : Nat} {token : Token α}
    (h : Frames pattern set spansAt) (hreads : pattern.parser.Reads source index token)
    : ∃ before char after rest,
        source.rest? index = some (before ++ char :: after ++ rest)
        ∧ IsBlank before
        ∧ set.contains char
        ∧ IsBlank after
        ∧ token
          = pattern.tokenOf index (before ++ char :: after) rest (spansAt before.length) := by
  obtain ⟨place, found, hplace, hmatch, rfl⟩ := Pattern.reads_iff.mp hreads
  obtain ⟨before, char, after, rest, hsplit, hbefore, hchar, hafter, hpassed, hspans⟩ :=
    h.exists_of_match? hmatch
  refine ⟨before, char, after, rest, ?_, hbefore, hchar, hafter, ?_⟩
  · rw [source.rest?_of_at? hplace, hsplit]
  · rw [hsplit, hpassed, hspans, List.take_left, List.drop_left]

end Frames

theorem markPattern_frames (written : String) {mark : Char} (hmark : ¬ Unicode.isSpace mark)
    : Frames (markPattern written mark) (.single mark) fun _ => [] := by
  refine ⟨⟨.literal mark, rfl, matchesOne_oneOf _⟩, ?_⟩
  intro char hchar
  rwa [CharSet.contains_single_iff.mp hchar]

/-- The pattern of a mark spells it with white space around it, as the only member of its set. -/
theorem markPattern_spells (written : String) {mark : Char} (hmark : ¬ Unicode.isSpace mark)
    : (markPattern written mark).matcher.Spells (Framed mark) := by
  intro place found hmatch
  obtain ⟨text, rest, hsplit, hpassed, char, hchar, hframed⟩ :=
    (markPattern_frames written hmark).spells hmatch
  obtain rfl := CharSet.contains_single_iff.mp hchar
  exact ⟨text, rest, hsplit, hpassed, hframed⟩

namespace Level

/-- The set of a level consists of its operators, by cases on the level. -/
theorem contains_signs_iff {level : Level} {char : Char}
    : level.signs.contains char ↔ char ∈ level.operators := by
  cases level <;> simp [signs, operators, CharSet.contains, CharSet.contains_single_iff, or_assoc]

/-- The span of a single sign is recorded. -/
def spansAt (passed : Nat) : List (Nat × Span) :=
  [(1, ⟨passed, passed + 1⟩)]

/-- No operator is white space, by evaluation for both levels. -/
theorem not_isSpace_of_mem_operators {level : Level} {char : Char}
    (h : char ∈ level.operators)
    : ¬ Unicode.isSpace char := by
  have hall : level.operators.all fun other => !Unicode.isSpace other := by
    cases level <;> rfl
  simpa using List.all_eq_true.mp hall char h

theorem pattern_frames (level : Level) : Frames level.pattern level.signs spansAt := by
  refine ⟨⟨.capture 1 none (.oneOf level.signs), ?_, matchesOne_capture _⟩, ?_⟩
  · cases level <;> rfl
  · intro char hchar
    exact not_isSpace_of_mem_operators (contains_signs_iff.mp hchar)

end Level

section Tokens

variable {source : Source} {index : Nat} {token : Tree} {text rest : List Char}

/-- The token of a text ends as many bytes behind its start as the text takes. -/
theorem stop_tokenOf {pattern : Pattern} {spans : List (Nat × Span)}
    : (pattern.tokenOf index text rest spans : Tree).stop = index + byteLength text :=
  rfl

/-- The first group of a pattern is all its text, whatever else is recorded. -/
theorem matchedText_tokenOf {pattern : Pattern} {spans : List (Nat × Span)}
    : matchedText (pattern.tokenOf index text rest spans) = String.ofList text := by
  have hfull
      : (pattern.groups (text ++ rest) ⟨text.length, spans⟩).full?
        = some (String.ofList text) := by
    simp [Groups.full?, Groups.get?, Pattern.groups]
  simp [matchedText, Pattern.tokenOf, Value.groups?, hfull]

/-- The second group of an operator is its sign, since the span of this is recorded behind the
white space in front.
-/
theorem capturedOperator?_tokenOf {level : Level} {before after : List Char} {operator : Char}
    : capturedOperator?
        (level.pattern.tokenOf index (before ++ operator :: after) rest
          (Level.spansAt before.length))
      = some operator := by
  have hcount : level.pattern.matcher.groupNames.length = 2 := by
    cases level <;> rfl
  have hsign
      : (level.pattern.groups (before ++ operator :: after ++ rest)
            ⟨(before ++ operator :: after).length, Level.spansAt before.length⟩).get? 1
        = some (String.ofList [operator]) := by
    simp [Groups.get?, Pattern.groups, hcount, List.range_succ, Pattern.groupText?,
      Level.spansAt]
  simp only [capturedOperator?, Pattern.tokenOf, Value.groups?, Option.bind_eq_bind,
    Option.bind_some, hsign]
  simp

/-- An operator covers the sign that it captures with white space around it, as its pattern
frames it.
-/
theorem Level.exists_slice_of_reads {level : Level}
    (hreads : level.pattern.parser.Reads source index token)
    : ∃ operator ∈ level.operators,
        capturedOperator? token = some operator
        ∧ ∃ text, source.slice? index token.stop = some text ∧ Framed operator text := by
  obtain ⟨before, operator, after, rest, hrest, hbefore, hchar, hafter, rfl⟩ :=
    level.pattern_frames.exists_of_reads hreads
  exact ⟨operator, contains_signs_iff.mp hchar, capturedOperator?_tokenOf,
    before ++ operator :: after, source.slice?_of_rest? hrest, before, after, rfl, hbefore,
    hafter⟩

/-- A pattern covers the text that it matches, for a sample of the rest is a slice. -/
theorem exists_slice_of_reads {pattern : Pattern}
    (hreads : pattern.parser.Reads source index token)
    : token.index = index
      ∧ ∃ text,
          source.slice? index (index + token.size) = some text
          ∧ matchedText token = String.ofList text := by
  obtain ⟨place, found, hplace, -, rfl⟩ := Pattern.reads_iff.mp hreads
  refine ⟨rfl, place.after.take found.passed, ?_, matchedText_tokenOf⟩
  have hrest
      : source.rest? index
        = some (place.after.take found.passed ++ place.after.drop found.passed) := by
    rw [List.take_append_drop, source.rest?_of_at? hplace]
  exact source.slice?_of_rest? hrest

end Tokens

end TokenGrammar.Arithmetic
