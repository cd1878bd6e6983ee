import TokenGrammar.Proofs.Forward

/-! The rules that a grammar enters while it is read. If the grammar comes to no answer, that is
because one of the rules that it enters comes to none: lists stop by themselves, as no round of
theirs steps back.
-/

namespace TokenGrammar

variable {ρ κ α : Type}

-----------------------------------------------------------------------------------------
-- Parts of grammars
-----------------------------------------------------------------------------------------

namespace Grammar

mutual

/-- The parts of a grammar, itself included, apart from those that stand behind a barrier in a
sequence. A lookahead stands behind none of the elements of its own sequence.
-/
def parts (isBarrier : Grammar ρ κ → Bool) : Grammar ρ κ → List (Grammar ρ κ)
  | .literal expected => [.literal expected]
  | .pattern expected => [.pattern expected]
  | .fail message => [.fail message]
  | .emit size kind => [.emit size kind]
  | .ignored body => .ignored body :: body.parts isBarrier
  | .optional body => .optional body :: body.parts isBarrier
  | .choice bodies => .choice bodies :: partsOfAll isBarrier bodies
  | .sequence bodies ahead =>
      .sequence bodies ahead :: (partsInOrder isBarrier bodies ++ parts? isBarrier ahead)
  | .list item delimiter ahead =>
      .list item delimiter ahead
        :: (item.parts isBarrier ++ (parts? isBarrier delimiter ++ parts? isBarrier ahead))
  | .act action body => .act action body :: body.parts isBarrier
  | .reword rewording body => .reword rewording body :: body.parts isBarrier
  | .rule name => [.rule name]

/-- The parts of all grammars. -/
def partsOfAll (isBarrier : Grammar ρ κ → Bool) : List (Grammar ρ κ) → List (Grammar ρ κ)
  | [] => []
  | body :: rest => body.parts isBarrier ++ partsOfAll isBarrier rest

/-- The parts of the grammars up to the first barrier. -/
def partsInOrder (isBarrier : Grammar ρ κ → Bool) : List (Grammar ρ κ) → List (Grammar ρ κ)
  | [] => []
  | body :: rest =>
      body.parts isBarrier ++ (if isBarrier body then [] else partsInOrder isBarrier rest)

/-- The parts of a grammar that may be absent. -/
def parts? (isBarrier : Grammar ρ κ → Bool) : Option (Grammar ρ κ) → List (Grammar ρ κ)
  | none => []
  | some body => body.parts isBarrier

end

/-- All parts of a grammar. -/
abbrev allParts (grammar : Grammar ρ κ) : List (Grammar ρ κ) :=
  grammar.parts fun _ => false

end Grammar

-----------------------------------------------------------------------------------------
-- Entries
-----------------------------------------------------------------------------------------

section Entries

variable (perform : κ → Token α → Except ParseError (Token α)) (resolve : ρ → Parser α)
  (source : Source)

/-- While the grammar is read from an offset on, the rule is entered at a given one. Whatever has
to come before is part of the relation: earlier alternatives fail, earlier elements of sequences
and earlier rounds of lists are read.
-/
inductive Grammar.Enters (name : ρ) (offset : Nat) : Grammar ρ κ → Nat → Prop where
  | rule : Enters name offset (.rule name) offset
  | ignored {body : Grammar ρ κ} {index : Nat} (inner : Enters name offset body index)
    : Enters name offset (.ignored body) index
  | optional {body : Grammar ρ κ} {index : Nat} (inner : Enters name offset body index)
    : Enters name offset (.optional body) index
  | act {action : κ} {body : Grammar ρ κ} {index : Nat}
    (inner : Enters name offset body index)
    : Enters name offset (.act action body) index
  | reword {rewording : Rewording} {body : Grammar ρ κ} {index : Nat}
    (inner : Enters name offset body index)
    : Enters name offset (.reword rewording body) index
  | alternative {body : Grammar ρ κ} {rest : List (Grammar ρ κ)} {index : Nat}
    (inner : Enters name offset body index)
    : Enters name offset (.choice (body :: rest)) index
  | laterAlternative {body : Grammar ρ κ} {rest : List (Grammar ρ κ)} {index : Nat}
    {error : ParseError} (fails : (body.parser perform resolve).Fails source index error)
    (inner : Enters name offset (.choice rest) index)
    : Enters name offset (.choice (body :: rest)) index
  | element {body : Grammar ρ κ} {rest : List (Grammar ρ κ)} {ahead : Option (Grammar ρ κ)}
    {index : Nat} (inner : Enters name offset body index)
    : Enters name offset (.sequence (body :: rest) ahead) index
  | laterElement {body : Grammar ρ κ} {rest : List (Grammar ρ κ)}
    {ahead : Option (Grammar ρ κ)} {index : Nat} {token : Token α}
    (reads : (body.parser perform resolve).Reads source index token)
    (inner : Enters name offset (.sequence rest ahead) token.stop)
    : Enters name offset (.sequence (body :: rest) ahead) index
  | elementAhead {body ahead : Grammar ρ κ} {rest : List (Grammar ρ κ)} {index : Nat}
    {error : ParseError} (inside : index < source.size)
    (fails : (body.parser perform resolve).Fails source index error)
    (inner : Enters name offset ahead index)
    : Enters name offset (.sequence (body :: rest) (some ahead)) index
  | item {item : Grammar ρ κ} {delimiter ahead : Option (Grammar ρ κ)} {index : Nat}
    (inside : index < source.size) (inner : Enters name offset item index)
    : Enters name offset (.list item delimiter ahead) index
  | itemAhead {item ahead : Grammar ρ κ} {delimiter : Option (Grammar ρ κ)} {index : Nat}
    {token : Token α} (inside : index < source.size)
    (reads : (item.parser perform resolve).Reads source index token)
    (inner : Enters name offset ahead token.stop)
    : Enters name offset (.list item delimiter (some ahead)) index
  | delimiter {item delimiter : Grammar ρ κ} {ahead : Option (Grammar ρ κ)} {index : Nat}
    {token : Token α} (inside : index < source.size)
    (reads : (item.parser perform resolve).Reads source index token)
    (misses : Parser.Misses (ahead.map (parser perform resolve)) source token.stop)
    (inner : Enters name offset delimiter token.stop)
    : Enters name offset (.list item (some delimiter) ahead) index
  | laterRound {item : Grammar ρ κ} {delimiter ahead : Option (Grammar ρ κ)}
    {index next : Nat} {token : Token α}
    (round
      : Parser.Round (item.parser perform resolve) (delimiter.map (parser perform resolve))
          (ahead.map (parser perform resolve)) source index token next)
    (progress : next ≠ index) (inner : Enters name offset (.list item delimiter ahead) next)
    : Enters name offset (.list item delimiter ahead) index

variable {perform resolve source} {name callee : ρ} {offset index : Nat} {body : Grammar ρ κ}
  {bodies : List (Grammar ρ κ)}

@[simp]
theorem Grammar.enters_pattern_iff {expected : Pattern}
    : (pattern expected).Enters perform resolve source name offset index ↔ False := by
  constructor
  · intro h
    cases h
  · exact False.elim

/-- What is ignored enters rules as its body does. -/
@[simp]
theorem Grammar.enters_ignored_iff
    : (ignored body).Enters perform resolve source name offset index
      ↔ body.Enters perform resolve source name offset index := by
  constructor
  · intro h
    cases h with
    | ignored inner => exact inner
  · exact .ignored

/-- An action enters rules as its body does. -/
@[simp]
theorem Grammar.enters_act_iff {action : κ}
    : (act action body).Enters perform resolve source name offset index
      ↔ body.Enters perform resolve source name offset index := by
  constructor
  · intro h
    cases h with
    | act inner => exact inner
  · exact .act

/-- A reference enters the rule that it names, where it stands. -/
@[simp]
theorem Grammar.enters_rule_iff
    : (rule callee).Enters perform resolve source name offset index
      ↔ name = callee ∧ offset = index := by
  constructor
  · intro h
    cases h with
    | rule => exact ⟨rfl, rfl⟩
  · rintro ⟨rfl, rfl⟩
    exact .rule

/-- A choice enters rules where it starts itself, by induction on the names. -/
theorem Grammar.Enters.choice {names : List ρ}
    (h : (choice (names.map .rule)).Enters perform resolve source name offset index)
    : name ∈ names ∧ offset = index := by
  induction names with
  | nil => cases h
  | cons first rest ih =>
      cases h with
      | alternative inner =>
          obtain ⟨rfl, rfl⟩ := enters_rule_iff.mp inner
          exact ⟨List.mem_cons_self .., rfl⟩
      | laterAlternative _ inner =>
          obtain ⟨hmem, hoffset⟩ := ih inner
          exact ⟨List.mem_cons_of_mem _ hmem, hoffset⟩

@[simp]
theorem Grammar.enters_sequence_nil_iff
    : (sequence [] none).Enters perform resolve source name offset index ↔ False := by
  constructor
  · intro h
    cases h
  · exact False.elim

/-- A sequence enters a rule in its first element, or after it, by cases on how it does. -/
@[simp]
theorem Grammar.enters_sequence_cons_iff
    : (sequence (body :: bodies) none).Enters perform resolve source name offset index
      ↔ body.Enters perform resolve source name offset index
        ∨ ∃ token,
            (body.parser perform resolve).Reads source index token
            ∧ (sequence bodies none).Enters perform resolve source name offset token.stop := by
  constructor
  · intro h
    cases h with
    | element inner => exact Or.inl inner
    | laterElement reads inner => exact Or.inr ⟨_, reads, inner⟩
  · rintro (inner | ⟨token, reads, inner⟩)
    · exact .element inner
    · exact .laterElement reads inner

variable (perform resolve source)

/-- Where the grammar comes to no answer, one of the rules that it enters comes to none. -/
def Grammar.Delegates (grammar : Grammar ρ κ) : Prop :=
  ∀ index,
    (grammar.parser perform resolve source index).outcome = .unresolved
    → ∃ name offset,
        grammar.Enters perform resolve source name offset index
        ∧ (resolve name source offset).outcome = .unresolved

end Entries

-----------------------------------------------------------------------------------------
-- No answer without a rule that comes to none
-----------------------------------------------------------------------------------------

namespace Grammar

variable {perform : κ → Token α → Except ParseError (Token α)} {resolve : ρ → Parser α}
  {source : Source} {item : Grammar ρ κ} {bodies : List (Grammar ρ κ)}
  {delimiter ahead : Option (Grammar ρ κ)} {index : Nat}

/-- A choice that comes to no answer enters a rule that comes to none, by induction on the
alternatives: the first one hangs, or it fails and the others do.
-/
theorem exists_enters_choice (hbodies : ∀ body ∈ bodies, body.Delegates perform resolve source)
    {errors : List ParseError}
    (h
      : (Parser.choiceAfter source index errors (bodies.map (parser perform resolve))).outcome
        = .unresolved)
    : ∃ name offset,
        (choice bodies).Enters perform resolve source name offset index
        ∧ (resolve name source offset).outcome = .unresolved := by
  induction bodies generalizing errors with
  | nil => simp [Parser.choiceAfter] at h
  | cons body rest ih =>
      obtain ⟨hbody, hrest⟩ := List.forall_mem_cons.mp hbodies
      simp only [List.map_cons, Parser.choiceAfter, Reply.outcome_fold_eq_unresolved_iff] at h
      rcases h with hfirst | ⟨token, -, hmatched⟩ | ⟨error, hfails, hlater⟩
      · obtain ⟨name, offset, hinner, hname⟩ := hbody _ hfirst
        exact ⟨name, offset, .alternative hinner, hname⟩
      · simp at hmatched
      · obtain ⟨name, offset, hinner, hname⟩ := ih hrest hlater
        exact ⟨name, offset, .laterAlternative hfails hinner, hname⟩

/-- A sequence that comes to no answer enters a rule that comes to none, by induction on the
elements: the first one hangs, or it is read and the others do, or it fails and the lookahead
hangs.
-/
theorem exists_enters_sequence
    (hbodies : ∀ body ∈ bodies, body.Delegates perform resolve source)
    (hahead : ∀ body ∈ ahead, body.Delegates perform resolve source)
    (h
      : (Parser.runSequence (ahead.map (parser perform resolve)) source
          (bodies.map (parser perform resolve)) index).outcome
        = .unresolved)
    : ∃ name offset,
        (sequence bodies ahead).Enters perform resolve source name offset index
        ∧ (resolve name source offset).outcome = .unresolved := by
  induction bodies generalizing index with
  | nil => simp [Parser.runSequence] at h
  | cons body rest ih =>
      obtain ⟨hbody, hrest⟩ := List.forall_mem_cons.mp hbodies
      rcases Parser.runSequence_cons_unresolved_iff.mp h with
        hfirst | ⟨token, hreads, hlater⟩ | ⟨error, hfails, hinside, look, hlook, hnone⟩
      · obtain ⟨name, offset, hinner, hname⟩ := hbody _ hfirst
        exact ⟨name, offset, .element hinner, hname⟩
      · obtain ⟨name, offset, hinner, hname⟩ := ih hrest hlater
        exact ⟨name, offset, .laterElement hreads hinner, hname⟩
      · obtain ⟨body, rfl, rfl⟩ := Option.map_eq_some_iff.mp hlook
        obtain ⟨name, offset, hinner, hname⟩ := hahead body rfl _ hnone
        exact ⟨name, offset, .elementAhead hinside hfails hinner, hname⟩

/-- A list that comes to no answer enters a rule that comes to none, by induction on the rounds.
These suffice, because each of them that goes on consumes a byte at least.
-/
theorem exists_enters_list (hitem : item.Delegates perform resolve source)
    (hdelimiter : ∀ body ∈ delimiter, body.Delegates perform resolve source)
    (hahead : ∀ body ∈ ahead, body.Delegates perform resolve source)
    (hforward : (item.parser perform resolve).Forward source)
    (hpasses : ∀ body ∈ delimiter, (body.parser perform resolve).Forward source)
    {rounds : Nat} (hrounds : source.size - index ≤ rounds)
    (h
      : (Parser.runList (item.parser perform resolve) (delimiter.map (parser perform resolve))
          (ahead.map (parser perform resolve)) source rounds index).outcome
        = .unresolved)
    : ∃ name offset,
        (list item delimiter ahead).Enters perform resolve source name offset index
        ∧ (resolve name source offset).outcome = .unresolved := by
  induction rounds generalizing index with
  | zero =>
      unfold Parser.runList at h
      rw [if_pos (by omega)] at h
      simp at h
  | succ rounds ih =>
      rcases Nat.lt_or_ge index source.size with hinside | houtside
      · rcases (Parser.runList_succ_unresolved_iff hinside).mp h with hfirst
          | ⟨token, hreads, ⟨look, hlook, hnone⟩ | ⟨hmisses, ⟨pass, hpass, hnone⟩ | hlater⟩⟩
        · obtain ⟨name, offset, hinner, hname⟩ := hitem _ hfirst
          exact ⟨name, offset, .item hinside hinner, hname⟩
        · obtain ⟨body, rfl, rfl⟩ := Option.map_eq_some_iff.mp hlook
          obtain ⟨name, offset, hinner, hname⟩ := hahead body rfl _ hnone
          exact ⟨name, offset, .itemAhead hinside hreads hinner, hname⟩
        · obtain ⟨body, rfl, rfl⟩ := Option.map_eq_some_iff.mp hpass
          obtain ⟨name, offset, hinner, hname⟩ := hdelimiter body rfl _ hnone
          exact ⟨name, offset, .delimiter hinside hreads hmisses hinner, hname⟩
        · obtain ⟨next, hnext, hprogress, hrun⟩ := hlater
          have hround
              : Parser.Round (item.parser perform resolve)
                  (delimiter.map (parser perform resolve))
                  (ahead.map (parser perform resolve)) source index token next :=
            ⟨hinside, hreads, hmisses, hnext⟩
          have hle : index ≤ next := hround.le_next hforward (by simpa using hpasses)
          obtain ⟨name, offset, hinner, hname⟩ := ih (by omega) hrun
          exact ⟨name, offset, .laterRound hround hprogress hinner, hname⟩
      · rw [Parser.runList_of_size_le houtside] at h
        simp at h

/-- The items and delimiters of all lists in the grammar never step back. -/
def ListsForward (perform : κ → Token α → Except ParseError (Token α)) (resolve : ρ → Parser α)
    (source : Source) (grammar : Grammar ρ κ)
    : Prop :=
  ∀ item delimiter ahead,
    .list item delimiter ahead ∈ grammar.allParts
    → (item.parser perform resolve).Forward source
      ∧ ∀ body ∈ delimiter, (body.parser perform resolve).Forward source

/-- The parts of several grammars are those of each of them, by induction on the list. -/
theorem mem_partsOfAll {isBarrier : Grammar ρ κ → Bool} {part : Grammar ρ κ}
    : part ∈ partsOfAll isBarrier bodies ↔ ∃ body ∈ bodies, part ∈ body.parts isBarrier := by
  induction bodies with
  | nil => simp [partsOfAll]
  | cons body rest ih => simp [partsOfAll, ih]

theorem mem_parts? {isBarrier : Grammar ρ κ → Bool} {part : Grammar ρ κ}
    {body? : Option (Grammar ρ κ)}
    : part ∈ parts? isBarrier body? ↔ ∃ body ∈ body?, part ∈ body.parts isBarrier := by
  cases body? <;> simp [parts?]

/-- Without barriers, all parts of the elements are counted, by induction on the list. -/
theorem partsInOrder_eq_partsOfAll
    : partsInOrder (fun _ => false) bodies = partsOfAll (fun _ => false) bodies := by
  induction bodies with
  | nil => rfl
  | cons body rest ih => simp [partsInOrder, partsOfAll, ih]

theorem allParts_subset_choice {body : Grammar ρ κ} (h : body ∈ bodies)
    : body.allParts ⊆ (choice bodies).allParts :=
  fun _ hpart => List.mem_cons_of_mem _ (mem_partsOfAll.mpr ⟨body, h, hpart⟩)

theorem allParts_subset_sequence {body : Grammar ρ κ} (h : body ∈ bodies)
    : body.allParts ⊆ (sequence bodies ahead).allParts := by
  intro part hpart
  simpa [parts, partsInOrder_eq_partsOfAll, mem_partsOfAll, mem_parts?]
    using Or.inr (Or.inl ⟨body, h, hpart⟩)

theorem allParts_subset_sequence_ahead {body : Grammar ρ κ} (h : body ∈ ahead)
    : body.allParts ⊆ (sequence bodies ahead).allParts := by
  intro part hpart
  simpa [parts, partsInOrder_eq_partsOfAll, mem_partsOfAll, mem_parts?]
    using Or.inr (Or.inr ⟨body, h, hpart⟩)

theorem allParts_subset_list_item : item.allParts ⊆ (list item delimiter ahead).allParts := by
  intro part hpart
  simpa [parts, mem_parts?] using Or.inr (Or.inl hpart)

theorem allParts_subset_list_delimiter {body : Grammar ρ κ} (h : body ∈ delimiter)
    : body.allParts ⊆ (list item delimiter ahead).allParts := by
  intro part hpart
  simpa [parts, mem_parts?] using Or.inr (Or.inr (Or.inl ⟨body, h, hpart⟩))

theorem allParts_subset_list_ahead {body : Grammar ρ κ} (h : body ∈ ahead)
    : body.allParts ⊆ (list item delimiter ahead).allParts := by
  intro part hpart
  simpa [parts, mem_parts?] using Or.inr (Or.inr (Or.inr ⟨body, h, hpart⟩))

/-- If the lists of a grammar never step back, those of its parts do not, since they are lists
of the grammar.
-/
theorem ListsForward.part {grammar part : Grammar ρ κ}
    (h : grammar.ListsForward perform resolve source) (hparts : part.allParts ⊆ grammar.allParts)
    : part.ListsForward perform resolve source :=
  fun item delimiter ahead hmem => h item delimiter ahead (hparts hmem)

/-- A grammar whose lists never step back only hangs in a rule that it enters, by induction on
the grammar.
-/
theorem delegates {grammar : Grammar ρ κ} (h : grammar.ListsForward perform resolve source)
    : grammar.Delegates perform resolve source := by
  induction grammar with
  | literal expected => exact fun _ hnone => absurd hnone Literal.outcome_ne_unresolved
  | pattern expected => exact fun _ hnone => absurd hnone Pattern.outcome_ne_unresolved
  | fail message | emit size kind => simp [Delegates, parser, Parser.fail, Parser.emit]
  | ignored body ih =>
      intro index hnone
      have hbody := ih (h.part (List.subset_cons_self ..))
      obtain ⟨name, offset, hinner, hname⟩ :=
        hbody _ (Reply.outcome_map_eq_unresolved_iff.mp hnone)
      exact ⟨name, offset, .ignored hinner, hname⟩
  | optional body ih =>
      intro index hnone
      have hbody := ih (h.part (List.subset_cons_self ..))
      simp only [parser, Parser.optional, Reply.outcome_recover_eq_unresolved_iff,
        Reply.outcome_noting, Reply.outcome_matched, reduceCtorEq, and_false, exists_false,
        or_false] at hnone
      obtain ⟨name, offset, hinner, hname⟩ := hbody _ hnone
      exact ⟨name, offset, .optional hinner, hname⟩
  | choice bodies ih =>
      intro index hnone
      rw [parser, parsers_eq_map] at hnone
      exact exists_enters_choice
        (fun body hmem => ih body hmem (h.part (allParts_subset_choice hmem))) hnone
  | sequence bodies ahead ih ihAhead =>
      intro index hnone
      rw [parser, parsers_eq_map, parser?_eq_map] at hnone
      simp only [Parser.sequence, Reply.outcome_bind_eq_unresolved_iff,
        Parser.Run.close_ne_unresolved, and_false, exists_false, or_false] at hnone
      exact exists_enters_sequence
        (fun body hmem => ih body hmem (h.part (allParts_subset_sequence hmem)))
        (fun body hmem => ihAhead body hmem (h.part (allParts_subset_sequence_ahead hmem))) hnone
  | list item delimiter ahead ih ihDelimiter ihAhead =>
      intro index hnone
      obtain ⟨hforward, hpasses⟩ := h item delimiter ahead (List.mem_cons_self ..)
      rw [parser, parser?_eq_map, parser?_eq_map] at hnone
      simp only [Parser.list, Reply.outcome_bind_eq_unresolved_iff,
        Parser.Run.close_ne_unresolved, and_false, exists_false, or_false] at hnone
      exact exists_enters_list (ih (h.part allParts_subset_list_item))
        (fun body hmem => ihDelimiter body hmem (h.part (allParts_subset_list_delimiter hmem)))
        (fun body hmem => ihAhead body hmem (h.part (allParts_subset_list_ahead hmem))) hforward
        hpasses (Nat.le_refl _) hnone
  | act action body ih =>
      intro index hnone
      have hbody := ih (h.part (List.subset_cons_self ..))
      simp only [parser, Parser.refine, Reply.outcome_bind_eq_unresolved_iff] at hnone
      rcases hnone with hnone | ⟨token, -, hchange⟩
      · obtain ⟨name, offset, hinner, hname⟩ := hbody _ hnone
        exact ⟨name, offset, .act hinner, hname⟩
      · split at hchange <;> simp at hchange
  | reword rewording body ih =>
      intro index hnone
      have hbody := ih (h.part (List.subset_cons_self ..))
      simp only [parser, Parser.reword, Reply.outcome_recover_eq_unresolved_iff,
        Reply.outcome_failed, reduceCtorEq, and_false, exists_false, or_false] at hnone
      obtain ⟨name, offset, hinner, hname⟩ := hbody _ hnone
      exact ⟨name, offset, .reword hinner, hname⟩
  | rule name => exact fun index hnone => ⟨name, index, .rule, hnone⟩

end Grammar

end TokenGrammar
