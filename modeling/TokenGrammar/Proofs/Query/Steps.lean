import TokenGrammar.Proofs.Forward
import TokenGrammar.Proofs.Query.Operands
import TokenGrammar.Proofs.Query.Refusals
import TokenGrammar.Proofs.Query.Rules

/-! What parsers of queries keep and how far they come, one after the other or as the items of a
list. Nothing of this depends on where a query starts, so that positions are left out.
-/

namespace TokenGrammar.Query

variable {source : Source} {index : Nat} {middle rest : List Char} {tree : Tree}
  {trees front back : List Tree}

-----------------------------------------------------------------------------------------
-- Positions
-----------------------------------------------------------------------------------------

/-- What is made from trees is the same wherever they are placed, apart from its own positions. -/
def IgnoresPositions (make : List Tree → Option (Value Node)) : Prop :=
  ∀ trees, make (trees.map unplaced) = (make trees).map unplacedValue

theorem text?_unplaced (tree : Tree) : (unplaced tree).value.text? = tree.value.text? := by
  rcases tree with ⟨_, _, _, value⟩
  cases value <;> rfl

theorem tokens?_unplaced (tree : Tree)
    : (unplaced tree).value.tokens? = tree.value.tokens?.map (List.map unplaced) := by
  rcases tree with ⟨_, _, _, value⟩
  cases value <;> simp [unplaced, unplacedValue, unplacedTokens_eq_map, Value.tokens?]

theorem groupText?_unplaced (number : Nat) (tree : Tree)
    : groupText? number (unplaced tree) = groupText? number tree := by
  rcases tree with ⟨_, _, _, value⟩
  cases value <;> rfl

theorem column?_ignoresPositions : IgnoresPositions column? := by
  intro trees
  rcases trees with _ | ⟨table, _ | ⟨column, _ | _⟩⟩ <;> try rfl
  simp only [List.map_cons, List.map_nil, column?, text?_unplaced]
  cases table.value.text? <;> cases column.value.text? <;> rfl

theorem test?_ignoresPositions : IgnoresPositions test? := by
  intro trees
  rcases trees with _ | ⟨left, _ | ⟨sign, _ | ⟨right, _ | _⟩⟩⟩ <;> try rfl
  simp only [List.map_cons, List.map_nil, test?, groupText?_unplaced]
  cases groupText? 1 sign <;> rfl

theorem filter?_ignoresPositions : IgnoresPositions filter? := by
  intro trees
  rcases trees with _ | ⟨test, _ | _⟩ <;> rfl

theorem join?_ignoresPositions : IgnoresPositions join? := by
  intro trees
  rcases trees with _ | ⟨table, _ | ⟨test, _ | _⟩⟩ <;> try rfl
  simp only [List.map_cons, List.map_nil, join?, text?_unplaced]
  cases table.value.text? <;> rfl

/-- Tables are made of the text of a name and the tokens of a list, by cases on whether there is
one.
-/
theorem tables?_ignoresPositions : IgnoresPositions tables? := by
  intro trees
  rcases trees with _ | ⟨first, rest⟩
  · rfl
  · have hjoins
        : ((rest.map unplaced).head?.bind (·.value.tokens?)).getD []
          = ((rest.head?.bind (·.value.tokens?)).getD []).map unplaced := by
      cases rest with
      | nil => rfl
      | cons list rest =>
          simp only [List.map_cons, List.head?_cons, Option.bind_some, tokens?_unplaced]
          cases list.value.tokens? <;> rfl
    simp only [List.map_cons, tables?, text?_unplaced, hjoins]
    cases first.value.text? <;>
      simp [unplacedValue, unplacedNode, unplacedTokens_eq_map]

theorem selection?_ignoresPositions : IgnoresPositions selection? := by
  intro trees
  rcases trees with _ | ⟨columns, _ | _⟩ <;> try rfl
  simp only [List.map_cons, List.map_nil, selection?, tokens?_unplaced]
  cases columns.value.tokens? <;> simp [unplacedValue, unplacedTokens_eq_map]

theorem query?_ignoresPositions : IgnoresPositions query? := by
  intro trees
  rcases trees with _ | ⟨selection, _ | ⟨tables, rest⟩⟩ <;> try rfl
  simp only [List.map_cons, query?, tokens?_unplaced]
  cases selection.value.tokens? <;>
    simp [unplacedValue, unplacedNode, unplacedTokens_eq_map, unplacedToken?_eq_map]

-----------------------------------------------------------------------------------------
-- Single parsers
-----------------------------------------------------------------------------------------

/-- The parser reads a token up to the rest. Apart from positions, the token is kept as one tree,
or it is ignored and kept as none.
-/
def Yields (source : Source) (parser : Parser Node) (index : Nat) (rest : List Char)
    (trees : List Tree)
    : Prop :=
  ∃ token,
    parser.Reads source index token
    ∧ (Parser.kept [token]).map unplaced = trees
    ∧ index ≤ token.stop
    ∧ source.rest? token.stop = some rest

/-- The parser fails. -/
def Rejects (source : Source) (parser : Parser Node) (index : Nat) : Prop :=
  ∃ error, parser.Fails source index error

/-- The pattern takes a text that is not empty, up to the rest. -/
def Consumes (source : Source) (pattern : Pattern) (index : Nat) (rest : List Char) : Prop :=
  ∃ token : Tree,
    pattern.parser.Reads source index token
    ∧ index < token.stop
    ∧ source.rest? token.stop = some rest

section Parsers

variable {parser : Parser Node}

/-- A token that is not ignored is kept as one tree. -/
theorem yields_of_reads {token : Tree} (hreads : parser.Reads source index token)
    (hkept : token.isIgnored = false) (hle : index ≤ token.stop)
    (hrest : source.rest? token.stop = some rest)
    : Yields source parser index rest [unplaced token] := by
  refine ⟨token, hreads, ?_, hle, hrest⟩
  rw [Parser.kept_cons_of_not_ignored hkept]
  rfl

/-- A tree that a parser yields is that of a token that is not ignored, since it was kept. -/
theorem Yields.exists_reads (h : Yields source parser index rest [tree])
    : ∃ token,
        parser.Reads source index token
        ∧ token.isIgnored = false
        ∧ unplaced token = tree
        ∧ index ≤ token.stop
        ∧ source.rest? token.stop = some rest := by
  obtain ⟨token, hreads, htrees, hle, hrest⟩ := h
  cases hignored : token.isIgnored with
  | true => simp [Parser.kept_cons, hignored] at htrees
  | false =>
      rw [Parser.kept_cons_of_not_ignored hignored] at htrees
      exact ⟨token, hreads, hignored, (List.cons.inj htrees).1, hle, hrest⟩

/-- What is ignored is kept as no tree. -/
theorem Yields.ignored (h : Yields source parser index rest trees)
    : Yields source (Parser.ignored parser) index rest [] := by
  obtain ⟨token, hreads, -, hle, hrest⟩ := h
  exact ⟨token.ignore, Parser.ignored_reads_iff.mpr ⟨token, hreads, rfl⟩, rfl, hle, hrest⟩

theorem Yields.optional (h : Yields source parser index rest trees)
    : Yields source (Parser.optional parser) index rest trees := by
  obtain ⟨token, hreads, h⟩ := h
  exact ⟨token, Parser.optional_reads_iff.mpr (Or.inl hreads), h⟩

/-- What is optional may be left out, and is kept as no tree then. -/
theorem Rejects.optional (h : Rejects source parser index)
    (hrest : source.rest? index = some rest)
    : Yields source (Parser.optional parser) index rest [] :=
  ⟨Token.ignored index 0, Parser.optional_reads_iff.mpr (Or.inr ⟨h, rfl⟩), rfl,
    Nat.le_refl index, hrest⟩

theorem Rejects.refine {change : Tree → Except ParseError Tree}
    (h : Rejects source parser index)
    : Rejects source (Parser.refine change parser) index := by
  obtain ⟨error, hfails⟩ := h
  exact ⟨error, Parser.refine_fails_iff.mpr (Or.inr hfails)⟩

theorem Rejects.ignored (h : Rejects source parser index)
    : Rejects source (Parser.ignored parser) index := by
  obtain ⟨error, hfails⟩ := h
  exact ⟨error, Parser.ignored_fails_iff.mpr hfails⟩

theorem Rejects.misses (h : Rejects source parser index)
    : Parser.Misses (some parser) source index := by
  rintro _ ⟨⟩
  exact h

theorem Yields.choice (before after : List (Parser Node))
    (h : Yields source parser index rest trees)
    (hbefore : ∀ earlier ∈ before, Rejects source earlier index)
    : Yields source (Parser.choice (before ++ parser :: after)) index rest trees := by
  obtain ⟨token, hreads, h⟩ := h
  exact ⟨token, Parser.choice_reads_iff.mpr ⟨before, parser, after, rfl, hbefore, hreads⟩, h⟩

variable {pattern : Pattern} {text : List Char} {spans : List (Nat × Span)}

theorem consumes_of_takes (htakes : pattern.matcher.Takes text rest spans)
    (htext : text ≠ []) (hrest : source.rest? index = some (text ++ rest))
    : Consumes source pattern index rest := by
  obtain ⟨char, others, rfl⟩ := List.exists_cons_of_ne_nil htext
  have hpos := byteLength_cons_pos char others
  exact ⟨_, Pattern.reads_of_takes htakes hrest, Nat.lt_add_of_pos_right hpos,
    source.rest?_add hrest⟩

theorem yields_of_takes (htakes : pattern.matcher.Takes text rest spans)
    (hrest : source.rest? index = some (text ++ rest))
    : Yields source pattern.parser index rest [unplaced (pattern.tokenOf 0 text rest spans)] :=
  ⟨pattern.tokenOf index text rest spans, Pattern.reads_of_takes htakes hrest, rfl,
    Nat.le_add_right .., source.rest?_add hrest⟩

/-- An action may give the token of a pattern a value without positions in it. -/
theorem yields_of_perform {action : Action} {kind : String} {value : Value Node}
    (htakes : pattern.matcher.Takes text rest spans)
    (hrest : source.rest? index = some (text ++ rest))
    (hvalue : unplacedValue value = value)
    (hperform
      : action.perform (pattern.tokenOf index text rest spans)
        = .ok ((pattern.tokenOf index text rest spans).relabel (.named kind) value))
    : Yields source (Parser.refine action.perform pattern.parser) index rest
        [⟨0, 0, .named kind, value⟩] := by
  have hreads := Parser.refine_reads_iff.mpr
    ⟨_, Pattern.reads_of_takes htakes hrest, hperform⟩
  have hyields := yields_of_reads hreads rfl (Nat.le_add_right ..) (source.rest?_add hrest)
  rw [← hvalue]
  exact hyields

theorem Consumes.ignored (h : Consumes source pattern index rest)
    : Yields source (Parser.ignored pattern.parser) index rest [] := by
  obtain ⟨token, hreads, hlt, hrest⟩ := h
  have hyields : Yields source pattern.parser index rest ((Parser.kept [token]).map unplaced) :=
    ⟨token, hreads, rfl, Nat.le_of_lt hlt, hrest⟩
  exact hyields.ignored

theorem rejects_of_refuses (hrefuses : pattern.matcher.Refuses rest)
    (hrest : source.rest? index = some rest)
    : Rejects source pattern.parser index :=
  ⟨_, Pattern.fails_of_refuses hrefuses hrest⟩

end Parsers

-----------------------------------------------------------------------------------------
-- Several parsers
-----------------------------------------------------------------------------------------

/-- The parsers read one after the other up to the rest, and the trees are kept. -/
def YieldsAll (source : Source) (parsers : List (Parser Node)) (index : Nat)
    (rest : List Char) (trees : List Tree)
    : Prop :=
  ∃ tokens stop,
    Parser.Consecutive source parsers index tokens stop
    ∧ (Parser.kept tokens).map unplaced = trees
    ∧ index ≤ stop
    ∧ source.rest? stop = some rest

section Sequences

variable {parser : Parser Node} {parsers : List (Parser Node)}

theorem YieldsAll.nil (hrest : source.rest? index = some rest)
    : YieldsAll source [] index rest [] :=
  ⟨[], index, .nil, rfl, Nat.le_refl index, hrest⟩

/-- The other parsers go on wherever the first one stops, and their trees come behind its own.
-/
theorem YieldsAll.cons (hfirst : Yields source parser index middle front)
    (hothers
      : ∀ {offset},
          source.rest? offset = some middle → YieldsAll source parsers offset rest back)
    : YieldsAll source (parser :: parsers) index rest (front ++ back) := by
  obtain ⟨token, hreads, rfl, hle, hmiddle⟩ := hfirst
  obtain ⟨tokens, stop, hrun, rfl, hle', hrest⟩ := hothers hmiddle
  refine ⟨token :: tokens, stop, .cons hreads hrun, ?_, Nat.le_trans hle hle', hrest⟩
  rw [← List.map_append, ← Parser.kept_append]
  rfl

/-- What is assembled from the trees of several parsers is the same without positions. -/
theorem YieldsAll.assembled {kind : String} {make : List Tree → Option (Value Node)}
    {value : Value Node} (h : YieldsAll source parsers index rest trees)
    (hmake : IgnoresPositions make) (hvalue : make trees = some value) (htrees : trees ≠ [])
    : Yields source (assembled kind make parsers) index rest
        [⟨0, 0, .named kind, value⟩] := by
  obtain ⟨tokens, stop, hrun, rfl, hle, hrest⟩ := h
  have hkept : Parser.kept tokens ≠ [] := mt List.map_eq_nil_iff.mpr htrees
  rw [hmake, Option.map_eq_some_iff] at hvalue
  obtain ⟨placed, hplaced, rfl⟩ := hvalue
  have hstop : index + (stop - index) = stop := Nat.add_sub_cancel' hle
  refine yields_of_reads
    (assembled_reads_iff.mpr ⟨tokens, stop, placed, hrun, hkept, hplaced, rfl⟩) rfl
    (Nat.le_add_right ..) ?_
  rw [Token.stop, hstop]
  exact hrest

theorem Rejects.assembled {kind : String} {make : List Tree → Option (Value Node)}
    (h : Rejects source parser index)
    : Rejects source (assembled kind make (parser :: parsers)) index := by
  obtain ⟨error, hfails⟩ := h
  have hsequence : Rejects source (Parser.sequence (parser :: parsers) none) index :=
    Parser.exists_sequence_none_fails .nil hfails
  exact hsequence.refine

end Sequences

-----------------------------------------------------------------------------------------
-- Lists
-----------------------------------------------------------------------------------------

/-- A list goes on with rounds that keep the trees, up to the rest. -/
def YieldsItems (source : Source) (item : Parser Node) (delimiter : Pattern)
    (ahead : Option (Parser Node)) (index : Nat) (rest : List Char) (trees : List Tree)
    : Prop :=
  ∃ tokens stop,
    Parser.Rounds item (some delimiter.parser) ahead source index tokens stop
    ∧ (Parser.kept tokens).map unplaced = trees
    ∧ index ≤ stop
    ∧ source.rest? stop = some rest

section Lists

variable {item : Parser Node} {delimiter : Pattern} {ahead : Option (Parser Node)}

theorem YieldsItems.exhausted (hrest : source.rest? index = some [])
    : YieldsItems source item delimiter ahead index [] [] := by
  have hsize := source.add_byteLength_of_rest? hrest
  exact ⟨[], index, .exhausted (Nat.le_of_eq hsize.symm), rfl, Nat.le_refl index, hrest⟩

theorem YieldsItems.found (hinside : index < source.size)
    (hitem : Yields source item index rest [tree])
    (hfinds : ∀ {offset}, source.rest? offset = some rest → Parser.Finds ahead source offset)
    : YieldsItems source item delimiter ahead index rest [tree] := by
  obtain ⟨token, hreads, hkept, rfl, hle, hrest⟩ := hitem.exists_reads
  refine ⟨[token], token.stop, .found hinside hreads (hfinds hrest), ?_, hle, hrest⟩
  rw [Parser.kept_cons_of_not_ignored hkept]
  rfl

/-- A list ends with an item that no delimiter follows. -/
theorem YieldsItems.undelimited (hinside : index < source.size)
    (hitem : Yields source item index rest [tree])
    (hmisses : ∀ {offset}, source.rest? offset = some rest → Parser.Misses ahead source offset)
    (hrejects
      : ∀ {offset}, source.rest? offset = some rest → Rejects source delimiter.parser offset)
    : YieldsItems source item delimiter ahead index rest [tree] := by
  obtain ⟨token, hreads, hkept, rfl, hle, hrest⟩ := hitem.exists_reads
  have hstops : Parser.Stops (some delimiter.parser) source token.stop :=
    ⟨delimiter.parser, rfl, hrejects hrest⟩
  refine ⟨[token], token.stop, .undelimited hinside hreads (hmisses hrest) hstops, ?_, hle,
    hrest⟩
  rw [Parser.kept_cons_of_not_ignored hkept]
  rfl

/-- A list goes on behind an item and a delimiter. -/
theorem YieldsItems.next {later : List Char} (hinside : index < source.size)
    (hitem : Yields source item index middle [tree])
    (hmisses
      : ∀ {offset}, source.rest? offset = some middle → Parser.Misses ahead source offset)
    (hconsumes
      : ∀ {offset}, source.rest? offset = some middle → Consumes source delimiter offset later)
    (hothers
      : ∀ {offset},
          source.rest? offset = some later
          → YieldsItems source item delimiter ahead offset rest trees)
    : YieldsItems source item delimiter ahead index rest (tree :: trees) := by
  obtain ⟨token, hreads, hkept, rfl, hle, hmiddle⟩ := hitem.exists_reads
  obtain ⟨between, hbetween, hlt, hlater⟩ := hconsumes hmiddle
  obtain ⟨tokens, stop, hrounds, rfl, hle', hrest⟩ := hothers hlater
  have hround
      : Parser.Round item (some delimiter.parser) ahead source index token between.stop :=
    ⟨hinside, hreads, hmisses hmiddle, between, hbetween, rfl⟩
  refine ⟨token :: tokens, stop, .next hround (by omega) hrounds, ?_, by omega, hrest⟩
  rw [Parser.kept_cons_of_not_ignored hkept]
  rfl

/-- A list keeps the trees of its items, at least one, within as many rounds as it may go
through.
-/
theorem YieldsItems.list (h : YieldsItems source item delimiter ahead index rest trees)
    (hitem : item.Forward source) (htrees : trees ≠ [])
    : Yields source (Parser.list item (some delimiter.parser) ahead) index rest
        [⟨0, 0, .named "list", .tokens trees⟩] := by
  obtain ⟨tokens, stop, hrounds, rfl, hle, hrest⟩ := h
  have hkept : Parser.kept tokens ≠ [] := mt List.map_eq_nil_iff.mpr htrees
  have hdelimiter
      : ∀ parser : Parser Node, parser ∈ some delimiter.parser → parser.Forward source := by
    rintro _ ⟨⟩
    exact delimiter.forward
  have hstop : index + (stop - index) = stop := Nat.add_sub_cancel' hle
  have hreads := Parser.list_reads_of_rounds hrounds hitem hdelimiter hkept
  rw [← unplacedTokens_eq_map]
  refine yields_of_reads hreads rfl (Nat.le_add_right ..) ?_
  rw [Token.stop, hstop]
  exact hrest

end Lists

end TokenGrammar.Query
