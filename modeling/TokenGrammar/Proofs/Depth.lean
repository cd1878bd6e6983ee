import Mathlib.Data.Finset.Prod
import TokenGrammar.Proofs.Alternation
import TokenGrammar.Proofs.Relocation
import TokenGrammar.Proofs.Termination

/-! The depth at which a grammar is read. If rules may be nested so deep that a grammar comes to an
answer, then the depth that is reserved for a source is enough: on the way to an answer, no rule is
entered within itself at the same offset, and all offsets past the end are alike.
-/

namespace TokenGrammar

variable {ρ κ α : Type}

-----------------------------------------------------------------------------------------
-- Rules that stand in the way of an answer
-----------------------------------------------------------------------------------------

namespace Parser

variable {parser item : Parser α} {parsers : List (Parser α)}
  {delimiter ahead : Option (Parser α)} {source : Source} {index cursor : Nat}

/-- Earlier errors have no influence on whether a choice comes to an answer, by induction on its
parsers.
-/
theorem choiceAfter_unresolved_of_unresolved {errors : List ParseError}
    (h : (choiceAfter source index errors parsers).outcome = .unresolved)
    (errors' : List ParseError)
    : (choiceAfter source index errors' parsers).outcome = .unresolved := by
  induction parsers generalizing errors errors' with
  | nil => simp [choiceAfter] at h
  | cons first rest ih =>
      simp only [choiceAfter, Reply.outcome_fold_eq_unresolved_iff] at h ⊢
      rcases h with hfirst | ⟨token, -, hmatched⟩ | ⟨error, hfails, hlater⟩
      · exact Or.inl hfirst
      · simp at hmatched
      · exact Or.inr (Or.inr ⟨error, hfails, ih hlater _⟩)

/-- Whether a list comes to an answer does not depend on its rounds if there are as many as bytes
left.
-/
theorem runList_unresolved_of_unresolved (hitem : item.Forward source)
    (hdelimiter : ∀ parser ∈ delimiter, parser.Forward source) {rounds rounds' : Nat}
    (hrounds : source.size - cursor ≤ rounds) (hrounds' : source.size - cursor ≤ rounds')
    (h : (runList item delimiter ahead source rounds cursor).outcome = .unresolved)
    : (runList item delimiter ahead source rounds' cursor).outcome = .unresolved := by
  have hwaits := (runList_unresolved_iff hitem hdelimiter hrounds).mp h
  exact (runList_unresolved_iff hitem hdelimiter hrounds').mpr hwaits

theorem sequence_unresolved_iff
    : (sequence parsers ahead source index).outcome = .unresolved
      ↔ (runSequence ahead source parsers index).outcome = .unresolved := by
  simp [sequence, Run.close_ne_unresolved]

theorem list_unresolved_iff
    : (list item delimiter ahead source index).outcome = .unresolved
      ↔ (runList item delimiter ahead source (source.size - index) index).outcome
        = .unresolved := by
  simp [list, Run.close_ne_unresolved]

/-- Before the end of the source, a list comes to no answer if its first round does not, or if the
list that goes on after the round does not.
-/
theorem list_unresolved_of_round (hitem : item.Forward source)
    (hdelimiter : ∀ parser ∈ delimiter, parser.Forward source) (hinside : index < source.size)
    (h
      : (item source index).outcome = .unresolved
        ∨ ∃ token,
            item.Reads source index token
            ∧ ((∃ parser ∈ ahead, (parser source token.stop).outcome = .unresolved)
              ∨ Misses ahead source token.stop
                ∧ ((∃ parser ∈ delimiter, (parser source token.stop).outcome = .unresolved)
                  ∨ ∃ next,
                      Passes delimiter source token.stop next
                      ∧ next ≠ index
                      ∧ (list item delimiter ahead source next).outcome = .unresolved)))
    : (list item delimiter ahead source index).outcome = .unresolved := by
  obtain ⟨rounds, hrounds, hleft⟩ := exists_rounds_left hinside (Nat.le_refl _)
  rw [list_unresolved_iff, hrounds, runList_succ_unresolved_iff hinside]
  refine h.imp_right fun ⟨token, hreads, hlater⟩ => ⟨token, hreads, ?_⟩
  refine hlater.imp_right fun ⟨hmisses, hlater⟩ => ⟨hmisses, ?_⟩
  refine hlater.imp_right fun ⟨next, hpasses, hprogress, hlist⟩ => ?_
  have round : Round item delimiter ahead source index token next :=
    ⟨hinside, hreads, hmisses, hpasses⟩
  have hlater := hleft next (round.lt_next hprogress hitem hdelimiter)
  exact ⟨next, hpasses, hprogress,
    runList_unresolved_of_unresolved hitem hdelimiter (Nat.le_refl _) hlater
      (list_unresolved_iff.mp hlist)⟩

end Parser

namespace Grammar

variable {perform : κ → Token α → Except ParseError (Token α)} {resolve resolve' : ρ → Parser α}
  {source : Source} {grammar : Grammar ρ κ} {name : ρ} {offset index : Nat}

/-- A grammar that enters a rule comes to no answer if the rule does not, by induction on the way to
the rule.
-/
theorem Enters.unresolved
    (hforward : ∀ body : Grammar ρ κ, (body.parser perform resolve).Forward source)
    (h : grammar.Enters perform resolve source name offset index)
    (hname : (resolve name source offset).outcome = .unresolved)
    : (grammar.parser perform resolve source index).outcome = .unresolved := by
  have hpasses (body? : Option (Grammar ρ κ))
      : ∀ parser ∈ parser? perform resolve body?, parser.Forward source :=
    forall_mem_parser?.mpr fun body _ => hforward body
  induction h with
  | rule => exact hname
  | ignored _ ih => exact Reply.outcome_map_eq_unresolved_iff.mpr ih
  | optional _ ih | reword _ ih => exact Reply.outcome_recover_eq_unresolved_iff.mpr (Or.inl ih)
  | act _ ih => exact Reply.outcome_bind_eq_unresolved_iff.mpr (Or.inl ih)
  | alternative _ ih => exact Reply.outcome_fold_eq_unresolved_iff.mpr (Or.inl ih)
  | laterAlternative fails _ ih =>
      exact Reply.outcome_fold_eq_unresolved_iff.mpr
        (Or.inr (Or.inr ⟨_, fails, Parser.choiceAfter_unresolved_of_unresolved ih _⟩))
  | element _ ih =>
      refine Parser.sequence_unresolved_iff.mpr ?_
      exact Parser.runSequence_cons_unresolved_iff.mpr (Or.inl ih)
  | laterElement reads _ ih =>
      refine Parser.sequence_unresolved_iff.mpr ?_
      exact Parser.runSequence_cons_unresolved_iff.mpr
        (Or.inr (Or.inl ⟨_, reads, Parser.sequence_unresolved_iff.mp ih⟩))
  | elementAhead inside fails _ ih =>
      refine Parser.sequence_unresolved_iff.mpr ?_
      exact Parser.runSequence_cons_unresolved_iff.mpr
        (Or.inr (Or.inr ⟨_, fails, inside, _, rfl, ih⟩))
  | item inside _ ih =>
      exact Parser.list_unresolved_of_round (hforward _) (hpasses _) inside (Or.inl ih)
  | itemAhead inside reads _ ih =>
      refine Parser.list_unresolved_of_round (hforward _) (hpasses _) inside ?_
      exact Or.inr ⟨_, reads, Or.inl ⟨_, rfl, ih⟩⟩
  | delimiter inside reads misses _ ih =>
      refine Parser.list_unresolved_of_round (hforward _) (hpasses _) inside ?_
      exact Or.inr ⟨_, reads, Or.inr ⟨by rwa [parser?_eq_map], Or.inl ⟨_, rfl, ih⟩⟩⟩
  | laterRound round progress _ ih =>
      refine Parser.list_unresolved_of_round (hforward _) (hpasses _) round.inside ?_
      have hmisses := round.misses
      have hpasses := round.passes
      rw [← parser?_eq_map] at hmisses hpasses
      exact Or.inr ⟨_, round.reads, Or.inr ⟨hmisses, Or.inr ⟨_, hpasses, progress, ih⟩⟩⟩

end Grammar

-----------------------------------------------------------------------------------------
-- Entries when rules answer more
-----------------------------------------------------------------------------------------

namespace Parser

variable {delimiter delimiter' ahead ahead' : Option (Parser α)} {source : Source}
  {cursor next : Nat}

/-- A lookahead that fails still fails if it answers more. -/
theorem Misses.approximate (h : Option.Rel Approximates ahead ahead')
    (hmisses : Misses ahead source cursor)
    : Misses ahead' source cursor := by
  cases h with
  | none => exact hmisses
  | @some parser parser' happroximates =>
      intro found hfound
      obtain rfl : parser' = found := Option.some.inj hfound
      obtain ⟨error, hfails⟩ := hmisses parser rfl
      exact ⟨error, happroximates.fails hfails⟩

theorem Passes.approximate (h : Option.Rel Approximates delimiter delimiter')
    (hpasses : Passes delimiter source cursor next)
    : Passes delimiter' source cursor next := by
  cases h with
  | none => exact hpasses
  | some happroximates =>
      obtain ⟨between, hbetween, hstop⟩ := hpasses
      exact ⟨between, happroximates.reads hbetween, hstop⟩

end Parser

namespace Grammar

variable {perform : κ → Token α → Except ParseError (Token α)} {resolve resolve' : ρ → Parser α}
  {source : Source} {grammar : Grammar ρ κ} {name : ρ} {offset index : Nat}

/-- What a grammar enters, it also enters if its rules answer more, by induction on the way to
the rule: whatever had to be read or to fail before still does.
-/
theorem Enters.approximate (happroximates : ∀ name, (resolve name).Approximates (resolve' name))
    (h : grammar.Enters perform resolve source name offset index)
    : grammar.Enters perform resolve' source name offset index := by
  have hbody (body : Grammar ρ κ)
      : (body.parser perform resolve).Approximates (body.parser perform resolve') :=
    body.parser_approximates happroximates
  have hbody? (body? : Option (Grammar ρ κ))
      : Option.Rel Parser.Approximates (body?.map (parser perform resolve))
          (body?.map (parser perform resolve')) := by
    rw [← parser?_eq_map, ← parser?_eq_map]
    exact parser?_approximates fun body _ => hbody body
  induction h with
  | rule => exact .rule
  | ignored _ ih => exact .ignored ih
  | optional _ ih => exact .optional ih
  | act _ ih => exact .act ih
  | reword _ ih => exact .reword ih
  | alternative _ ih => exact .alternative ih
  | laterAlternative fails _ ih => exact .laterAlternative ((hbody _).fails fails) ih
  | element _ ih => exact .element ih
  | laterElement reads _ ih => exact .laterElement ((hbody _).reads reads) ih
  | elementAhead inside fails _ ih => exact .elementAhead inside ((hbody _).fails fails) ih
  | item inside _ ih => exact .item inside ih
  | itemAhead inside reads _ ih => exact .itemAhead inside ((hbody _).reads reads) ih
  | delimiter inside reads misses _ ih =>
      exact .delimiter inside ((hbody _).reads reads) (misses.approximate (hbody? _)) ih
  | laterRound round progress _ ih =>
      exact .laterRound
        ⟨round.inside, (hbody _).reads round.reads, round.misses.approximate (hbody? _),
          round.passes.approximate (hbody? _)⟩
        progress ih

end Grammar

-----------------------------------------------------------------------------------------
-- Offsets past the end
-----------------------------------------------------------------------------------------

/-- Past its end, a source goes on like itself from everywhere. -/
theorem Source.aligned_past_end (source : Source) (distance : Nat)
    : source.Aligned source distance (source.size + 1) where
  rest := by
    intro offset hstart
    rw [rest?_eq_none_of_size_lt (by omega), rest?_eq_none_of_size_lt (by omega)]
  left := by
    intro offset hstart
    omega

/-- Past the end, every grammar comes to an answer everywhere or nowhere: its patterns fail, and
which errors there are makes no difference.
-/
theorem Grammar.relocatable_past_end {ρ κ : Type} (source : Source) (distance : Nat)
    (grammar : Grammar ρ κ)
    : grammar.Relocatable α (fun _ _ => True) source source distance (source.size + 1) where
  patterns expected _ := by
    intro index hstart
    rw [expected.fails_of_rest?_eq_none (Source.rest?_eq_none_of_size_lt (by omega)),
      expected.fails_of_rest?_eq_none (Source.rest?_eq_none_of_size_lt (by omega))]
    exact .failed trivial
  rewordings _ _ _ _ _ _ := trivial

namespace Language

variable {language : Language ρ κ α} {source : Source} {grammar : Grammar ρ κ} {name : ρ}
  {depth deeper offset index : Nat}

/-- All rules that have a definition are named, and actions neither shorten a token nor depend on
where it is.
-/
structure Relocatable (language : Language ρ κ α) : Prop where
  named : ∀ {name body}, language.definition name = some body → name ∈ language.names
  neverShortens : ∀ action, Parser.NeverShortens (language.perform action)
  movesAlong : ∀ distance action, Parser.MovesAlong distance (language.perform action)

/-- Whether a rule comes to an answer is the same at all offsets past the end, since the source
goes on like itself from each of them.
-/
theorem Relocatable.rule_unresolved_min_iff (h : language.Relocatable)
    : (language.rule depth name source (min offset (source.size + 1))).outcome = .unresolved
      ↔ (language.rule depth name source offset).outcome = .unresolved := by
  rcases Nat.le_total offset (source.size + 1) with hle | hpast
  · rw [Nat.min_eq_left hle]
  · obtain ⟨distance, rfl⟩ := Nat.exists_eq_add_of_le' hpast
    rw [Nat.min_eq_right hpast]
    have hrelocates
        : (language.rule depth name).Relocates (fun _ _ => True) source source distance
            (source.size + 1) :=
      rule_relocates ParseError.agreement_true (source.aligned_past_end distance)
        h.neverShortens (h.movesAlong distance)
        (fun _ => Grammar.relocatable_past_end source distance _) depth name
    exact (hrelocates _ (Nat.le_refl _)).unresolved_iff.symm

/-- A rule that comes to no answer comes to none if rules may be nested less deep, for an answer
would stay the same at the greater depth.
-/
theorem rule_unresolved_of_le (hle : depth ≤ deeper)
    (h : (language.rule deeper name source offset).outcome = .unresolved)
    : (language.rule depth name source offset).outcome = .unresolved := by
  by_contra hanswer
  rw [rule_approximates hle name source offset hanswer] at h
  exact hanswer h

/-- A grammar that enters a rule comes to no answer, however deep rules may be nested, if the rule
comes to none at that depth.
-/
theorem parserWithin_unresolved_of_enters (h : language.Relocatable) (hle : depth ≤ deeper)
    (henters
      : grammar.Enters language.perform (language.rule depth) source name offset index)
    (hname : (language.rule deeper name source offset).outcome = .unresolved)
    : (language.parserWithin deeper grammar source index).outcome = .unresolved :=
  (henters.approximate (rule_approximates hle)).unresolved
    (fun body => body.forward h.neverShortens (rule_forward h.neverShortens deeper)) hname

-----------------------------------------------------------------------------------------
-- Rules by the depth that they need
-----------------------------------------------------------------------------------------

/-- The rule comes to no answer at the offset within this depth, but does so within the next. -/
structure AnswersAfter (language : Language ρ κ α) (source : Source) (depth : Nat) (name : ρ)
    (offset : Nat)
    : Prop where
  unresolved : (language.rule depth name source offset).outcome = .unresolved
  answers : (language.rule (depth + 1) name source offset).outcome ≠ .unresolved

namespace AnswersAfter

/-- No rule needs two depths, since the answer at the lower one stays. -/
theorem depth_le (h : language.AnswersAfter source depth name offset)
    (h' : language.AnswersAfter source deeper name offset)
    : depth ≤ deeper := by
  by_contra hlt
  exact h'.answers (rule_unresolved_of_le (Nat.lt_of_not_le hlt) h.unresolved)

/-- If a rule needs one more level than a depth, it enters a rule that needs just that depth,
for its definition only hangs in a rule that it enters.
-/
theorem exists_shallower (h : language.AnswersAfter source (depth + 1) name offset)
    (hlanguage : language.Relocatable)
    : ∃ callee offset', language.AnswersAfter source depth callee offset' := by
  obtain ⟨hnone, hanswer⟩ := h
  cases hbody : language.definition name with
  | none => simp [rule, hbody] at hanswer
  | some body =>
      simp only [rule, hbody] at hnone hanswer
      obtain ⟨callee, offset', henters, hcallee⟩ :=
        body.delegates (listsForward hlanguage.neverShortens depth body) offset hnone
      -- Without an answer one level deeper, the callee would keep the body from its answer.
      refine ⟨callee, offset', hcallee, fun hdeeper => hanswer ?_⟩
      exact parserWithin_unresolved_of_enters hlanguage (Nat.le_succ depth) henters hdeeper

/-- A rule that needs a depth has some rule for every lower one, by induction on the depth. -/
theorem exists_of_le (h : language.AnswersAfter source deeper name offset)
    (hlanguage : language.Relocatable) (hle : depth ≤ deeper)
    : ∃ callee offset', language.AnswersAfter source depth callee offset' := by
  induction deeper generalizing name offset with
  | zero =>
      obtain rfl := Nat.le_zero.mp hle
      exact ⟨name, offset, h⟩
  | succ deeper ih =>
      rcases Nat.le_succ_iff.mp hle with hle | rfl
      · obtain ⟨callee, offset', hcallee⟩ := h.exists_shallower hlanguage
        exact ih hcallee hle
      · exact ⟨name, offset, h⟩

/-- There are no more rules and offsets to tell apart than names and offsets up to one past the
end, since all offsets past it are alike.
-/
theorem exists_mem_calls [DecidableEq ρ] (h : language.AnswersAfter source depth name offset)
    (hlanguage : language.Relocatable)
    : ∃ call ∈ language.names.toFinset ×ˢ Finset.range (source.size + 2),
        language.AnswersAfter source depth call.1 call.2 := by
  refine ⟨(name, min offset (source.size + 1)), ?_, ?_, ?_⟩
  · refine Finset.mem_product.mpr ⟨?_, Finset.mem_range.mpr ?_⟩
    · have hanswer := h.answers
      cases hbody : language.definition name with
      | none => simp [rule, hbody] at hanswer
      | some body => exact List.mem_toFinset.mpr (hlanguage.named hbody)
    · dsimp only
      omega
  · exact hlanguage.rule_unresolved_min_iff.mpr h.unresolved
  · exact fun hnone => h.answers (hlanguage.rule_unresolved_min_iff.mp hnone)

/-- No rule needs more depth than is reserved for the source: each lower depth has a rule at an
offset of its own.
-/
theorem depth_lt (h : language.AnswersAfter source depth name offset)
    (hlanguage : language.Relocatable)
    : depth < language.depth source.size := by
  classical
  have hcalls
      : ∀ lower ∈ Finset.range (depth + 1),
          ∃ call ∈ language.names.toFinset ×ˢ Finset.range (source.size + 2),
            language.AnswersAfter source lower call.1 call.2 := by
    intro lower hlower
    obtain ⟨callee, offset', hcallee⟩ :=
      h.exists_of_le hlanguage (Nat.le_of_lt_succ (Finset.mem_range.mp hlower))
    exact hcallee.exists_mem_calls hlanguage
  -- A rule at an offset needs one depth only, so no two depths share their call.
  have : Nonempty (ρ × Nat) := ⟨(name, offset)⟩
  choose! call hmem hanswers using hcalls
  have hinjective : Set.InjOn call (Finset.range (depth + 1) : Set Nat) := by
    intro lower hlower lower' hlower' hcall
    have hlowerCall := hanswers lower hlower
    rw [hcall] at hlowerCall
    exact Nat.le_antisymm (hlowerCall.depth_le (hanswers lower' hlower'))
      ((hanswers lower' hlower').depth_le hlowerCall)
  calc
    depth + 1 = (Finset.range (depth + 1)).card := (Finset.card_range _).symm
    _ ≤ (language.names.toFinset ×ˢ Finset.range (source.size + 2)).card :=
        Finset.card_le_card_of_injOn call hmem hinjective
    _ = language.names.toFinset.card * (source.size + 2) := by
        rw [Finset.card_product, Finset.card_range]
    _ ≤ language.names.length * (source.size + 2) :=
        Nat.mul_le_mul_right _ (List.toFinset_card_le _)

end AnswersAfter

/-- A rule that comes to an answer needs some depth for it, by induction on the depth. -/
theorem exists_answersAfter
    (h : (language.rule depth name source offset).outcome ≠ .unresolved)
    : ∃ first, language.AnswersAfter source first name offset := by
  induction depth with
  | zero => contradiction
  | succ depth ih =>
      by_cases hnone : (language.rule depth name source offset).outcome = .unresolved
      · exact ⟨depth, hnone, h⟩
      · exact ih hnone

/-- If a rule comes to no answer within the depth that is reserved for the source, it comes to none
within any other.
-/
theorem Relocatable.rule_unresolved (hlanguage : language.Relocatable)
    (h : (language.rule (language.depth source.size) name source offset).outcome = .unresolved)
    (depth : Nat)
    : (language.rule depth name source offset).outcome = .unresolved := by
  by_contra hanswer
  obtain ⟨first, hfirst⟩ := exists_answersAfter hanswer
  exact hfirst.answers (rule_unresolved_of_le (hfirst.depth_lt hlanguage) h)

/-- Any answer of a grammar, however deep rules are nested for it, is the one that it comes to
within the depth for the source.
-/
theorem Relocatable.parser_eq_of_answers (hlanguage : language.Relocatable)
    (h : (language.parserWithin depth grammar source index).outcome ≠ .unresolved)
    : language.parser grammar source index = language.parserWithin depth grammar source index := by
  rcases Nat.le_total depth (language.depth source.size) with hle | hle
  · exact parserWithin_eq_of_le hle h
  · refine (parserWithin_eq_of_le hle fun hnone => h ?_).symm
    obtain ⟨callee, offset, henters, hcallee⟩ :=
      grammar.delegates (listsForward hlanguage.neverShortens _ grammar) index hnone
    exact parserWithin_unresolved_of_enters hlanguage hle henters
      (hlanguage.rule_unresolved hcallee depth)

end Language

end TokenGrammar
