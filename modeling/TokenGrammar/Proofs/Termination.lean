import Mathlib.Data.Finset.Card
import TokenGrammar.Proofs.Deepening
import TokenGrammar.Proofs.Entries
import TokenGrammar.Proofs.Languages

/-! Languages without left recursion come to an answer everywhere. Between two entries of one rule
within each other, some text is consumed, or else the ranks of rules descend.
-/

namespace TokenGrammar

variable {ρ κ α : Type}

-----------------------------------------------------------------------------------------
-- Elements that consume text
-----------------------------------------------------------------------------------------

namespace Grammar

/-- The grammar is a text that is not empty, perhaps ignored, relabelled or with reworded errors.
-/
def isSolid : Grammar ρ κ → Bool
  | .literal expected => expected.text ≠ ""
  | .ignored body => body.isSolid
  | .act _ body => body.isSolid
  | .reword _ body => body.isSolid
  | _ => false

variable {perform : κ → Token α → Except ParseError (Token α)} {resolve : ρ → Parser α}
  {source : Source} {name : ρ} {offset index : Nat}

/-- Behind a solid grammar, less of the source is left, by induction on the grammar: its text is
not empty.
-/
theorem left_lt_of_isSolid (hperform : ∀ action, Parser.NeverShortens (perform action))
    {grammar : Grammar ρ κ} (hsolid : grammar.isSolid) {token : Token α}
    (hreads : (grammar.parser perform resolve).Reads source index token)
    : source.size - token.stop < source.size - index := by
  induction grammar generalizing token with
  | literal expected =>
      obtain ⟨rest, hrest, haccepts, rfl⟩ := Literal.reads_iff.mp hreads
      have hstop := source.le_size_of_isBoundary
        (source.isBoundary_of_rest? (source.rest?_add_take expected.text.length hrest))
      have hpos : 0 < byteLength (rest.take expected.text.length) := by
        cases hsample : rest.take expected.text.length with
        | nil =>
            rw [hsample] at haccepts
            simp [isSolid, Literal.text_eq_empty_of_accepts_nil haccepts] at hsolid
        | cons char sample => exact byteLength_cons_pos char sample
      simp only [Token.stop] at *
      omega
  | ignored body ih =>
      obtain ⟨inner, hinner, rfl⟩ := Parser.ignored_reads_iff.mp hreads
      rw [Token.ignore_stop]
      exact ih hsolid hinner
  | act action body ih =>
      obtain ⟨inner, hinner, hok⟩ := Parser.refine_reads_iff.mp hreads
      have hlt := ih hsolid hinner
      have hle := hperform action hok
      omega
  | reword rewording body ih => exact ih hsolid (Parser.reword_reads_iff.mp hreads)
  | _ => contradiction

/-- The grammar refers to the rule, and where it enters it, no more of the source is left than at
the start of the grammar; there is even less of it if a solid element stands in front.
-/
structure Descends (source : Source) (name : ρ) (offset : Nat) (grammar : Grammar ρ κ)
    (index : Nat)
    : Prop where
  refers : .rule name ∈ grammar.allParts
  left_le : source.size - offset ≤ source.size - index
  leads_or_left_lt
    : .rule name ∈ grammar.parts isSolid ∨ source.size - offset < source.size - index

/-- A part that is read later on descends no less, if it stands behind no barrier, by cases on
what the part promises.
-/
theorem Descends.lift {grammar body : Grammar ρ κ} {cursor : Nat}
    (h : body.Descends source name offset cursor)
    (hparts
      : ∀ isBarrier, .rule name ∈ body.parts isBarrier → .rule name ∈ grammar.parts isBarrier)
    (hle : index ≤ cursor)
    : grammar.Descends source name offset index := by
  obtain ⟨hrefers, hleft, hor⟩ := h
  refine ⟨hparts _ hrefers, by omega, ?_⟩
  rcases hor with hleads | hlt
  · exact Or.inl (hparts _ hleads)
  · exact Or.inr (by omega)

/-- A part of the rest of a sequence is a part of the sequence, if no barrier stands between. -/
theorem mem_parts_sequence_cons {isBarrier : Grammar ρ κ → Bool} {body : Grammar ρ κ}
    {rest : List (Grammar ρ κ)} {ahead : Option (Grammar ρ κ)}
    (hbody : isBarrier body = false)
    (h : .rule name ∈ (sequence rest ahead).parts isBarrier)
    : .rule name ∈ (sequence (body :: rest) ahead).parts isBarrier := by
  simp only [parts, List.mem_cons, reduceCtorEq, false_or, List.mem_append] at h
  simp only [parts, partsInOrder, hbody, Bool.false_eq_true, if_false, List.mem_cons,
    reduceCtorEq, false_or, List.mem_append, or_assoc]
  exact Or.inr h

/-- Whatever a grammar enters, it descends to, by induction on the way to the entry. -/
theorem Enters.descends (hperform : ∀ action, Parser.NeverShortens (perform action))
    (hresolve : ∀ name, (resolve name).Forward source) {grammar : Grammar ρ κ}
    (h : grammar.Enters perform resolve source name offset index)
    : grammar.Descends source name offset index := by
  have hforward (body : Grammar ρ κ) : (body.parser perform resolve).Forward source :=
    body.forward hperform hresolve
  induction h with
  | rule => exact ⟨by simp [parts], Nat.le_refl _, Or.inl (by simp [parts])⟩
  | ignored _ ih | optional _ ih | act _ ih | reword _ ih =>
      exact ih.lift (fun _ hpart => List.mem_cons_of_mem _ hpart) (Nat.le_refl _)
  | alternative _ ih =>
      exact ih.lift (fun _ hpart => by simp [parts, partsOfAll, hpart]) (Nat.le_refl _)
  | laterAlternative _ _ ih =>
      refine ih.lift (fun _ hpart => ?_) (Nat.le_refl _)
      simp only [parts, List.mem_cons, reduceCtorEq, false_or] at hpart
      simp [parts, partsOfAll, hpart]
  | element _ ih =>
      exact ih.lift (fun _ hpart => by simp [parts, partsInOrder, hpart]) (Nat.le_refl _)
  | @laterElement body _ _ index token reads _ ih =>
      refine ⟨mem_parts_sequence_cons rfl ih.refers, ?_, ?_⟩
      · exact Nat.le_trans ih.left_le (Nat.sub_le_sub_left (hforward body reads) _)
      · cases hsolid : body.isSolid with
        | true =>
            have hlt := left_lt_of_isSolid hperform hsolid reads
            exact Or.inr (Nat.lt_of_le_of_lt ih.left_le hlt)
        | false =>
            have hle := hforward body reads
            exact ih.leads_or_left_lt.imp (mem_parts_sequence_cons hsolid) (by omega)
  | elementAhead _ _ _ ih =>
      exact ih.lift (fun _ hpart => by simp [parts, parts?, hpart]) (Nat.le_refl _)
  | item _ _ ih =>
      exact ih.lift (fun _ hpart => by simp [parts, hpart]) (Nat.le_refl _)
  | itemAhead _ reads _ ih | delimiter _ reads _ _ ih =>
      exact ih.lift (fun _ hpart => by simp [parts, parts?, hpart]) (hforward _ reads)
  | laterRound round _ _ ih =>
      refine ih.lift (fun _ hpart => hpart) (round.le_next (hforward _) ?_)
      simp [hforward]

end Grammar

-----------------------------------------------------------------------------------------
-- Ranked languages
-----------------------------------------------------------------------------------------

namespace Language

variable {language : Language ρ κ α} {rank : ρ → Nat} {source : Source} {name callee : ρ}
  {body grammar : Grammar ρ κ}

/-- All rules that the rules of the language refer to are defined, and those that no solid element
stands in front of have a lower rank.
-/
structure Ranked (language : Language ρ κ α) (rank : ρ → Nat) : Prop where
  named : ∀ {name body}, language.definition name = some body → name ∈ language.names
  defined
    : ∀ {name body callee},
        language.definition name = some body
        → .rule callee ∈ body.allParts
        → (language.definition callee).isSome
  descends
    : ∀ {name body callee},
        language.definition name = some body
        → .rule callee ∈ body.parts Grammar.isSolid
        → rank callee < rank name

/-- How many ranks there are below the rank of the rule. -/
def height (language : Language ρ κ α) (rank : ρ → Nat) (name : ρ) : Nat :=
  ((language.names.map rank).toFinset.filter (· < rank name)).card

/-- A lower rank has fewer ranks below it, since it is itself one of those below the higher one.
-/
theorem height_lt_height (hcallee : callee ∈ language.names) (hlt : rank callee < rank name)
    : language.height rank callee < language.height rank name := by
  refine Finset.card_lt_card (Finset.ssubset_iff_of_subset ?_ |>.mpr ⟨rank callee, ?_, ?_⟩)
  · exact Finset.monotone_filter_right _ fun _ _ hbelow => Nat.lt_trans hbelow hlt
  · simpa [hlt] using ⟨callee, hcallee, rfl⟩
  · simp

/-- There are fewer ranks below a rank than names, since the rank itself is none of them. -/
theorem height_lt_length (rank : ρ → Nat) (hname : name ∈ language.names)
    : language.height rank name < language.names.length := by
  calc
    _ < (language.names.map rank).toFinset.card := by
        refine Finset.card_lt_card (Finset.filter_ssubset.mpr ⟨rank name, ?_, by simp⟩)
        exact List.mem_toFinset.mpr (List.mem_map_of_mem hname)
    _ ≤ (language.names.map rank).length := List.toFinset_card_le _
    _ = language.names.length := List.length_map _

theorem listsForward (hperform : ∀ action, Parser.NeverShortens (language.perform action))
    (depth : Nat) (grammar : Grammar ρ κ)
    : grammar.ListsForward language.perform (language.rule depth) source :=
  fun _ _ _ _ =>
    ⟨Grammar.forward hperform (rule_forward hperform depth) _,
      fun _ _ => Grammar.forward hperform (rule_forward hperform depth) _⟩

/-- A depth suffices for a rule if it counts the bytes that are left, and between them the ranks
below: by induction on the depth, since each rule that is entered needs less.
-/
theorem Ranked.rule_answers (hranked : language.Ranked rank)
    (hperform : ∀ action, Parser.NeverShortens (language.perform action)) {depth index : Nat}
    (hdefined : (language.definition name).isSome)
    (hdepth
      : language.names.length * (source.size - index) + language.height rank name < depth)
    : (language.rule depth name source index).outcome ≠ .unresolved := by
  induction depth generalizing name index with
  | zero => omega
  | succ depth ih =>
      intro hnone
      obtain ⟨body, hbody⟩ := Option.isSome_iff_exists.mp hdefined
      simp only [rule, hbody] at hnone
      obtain ⟨callee, offset, henters, hcallee⟩ :=
        body.delegates (listsForward hperform depth body) index hnone
      obtain ⟨hrefers, hle, hor⟩ := henters.descends hperform (rule_forward hperform depth)
      have hcalleeDefined := hranked.defined hbody hrefers
      obtain ⟨calleeBody, hcalleeBody⟩ := Option.isSome_iff_exists.mp hcalleeDefined
      have hnamed := hranked.named hcalleeBody
      refine ih hcalleeDefined ?_ hcallee
      rcases hor with hleads | hlt
      · have hheight := height_lt_height hnamed (hranked.descends hbody hleads)
        have := Nat.mul_le_mul_left language.names.length hle
        omega
      · have hheight := height_lt_length rank hnamed
        have := Nat.mul_le_mul_left language.names.length (Nat.succ_le_of_lt hlt)
        rw [Nat.mul_succ] at this
        omega

/-- In a ranked language, a grammar comes to an answer within the depth for the source, because
it could only hang in a rule that it refers to.
-/
theorem Ranked.parser_answers (hranked : language.Ranked rank)
    (hperform : ∀ action, Parser.NeverShortens (language.perform action))
    (hgrammar : ∀ name, .rule name ∈ grammar.allParts → (language.definition name).isSome)
    (source : Source) (index : Nat)
    : (language.parser grammar source index).outcome ≠ .unresolved := by
  intro hnone
  obtain ⟨callee, offset, henters, hcallee⟩ :=
    grammar.delegates (listsForward hperform _ grammar) index hnone
  have hrefers := (henters.descends hperform (rule_forward hperform _)).refers
  obtain ⟨body, hbody⟩ := Option.isSome_iff_exists.mp (hgrammar callee hrefers)
  refine hranked.rule_answers hperform (hgrammar callee hrefers) ?_ hcallee
  have hheight := height_lt_length rank (hranked.named hbody)
  calc
    _ < language.names.length * (source.size - offset) + language.names.length := by omega
    _ = language.names.length * (source.size - offset + 1) := (Nat.mul_succ ..).symm
    _ ≤ language.names.length * (source.size + 2) := Nat.mul_le_mul_left _ (by omega)

/-- In a ranked language, a grammar reads a token or fails at every offset of every source, and
it does the same if rules may be nested deeper than the depth for the source, since an answer
does not change with the depth.
-/
theorem answers_of_ranked
    (hperform : ∀ action, Parser.NeverShortens (language.perform action))
    (hranked : language.Ranked rank)
    (hgrammar : ∀ name, .rule name ∈ grammar.allParts → (language.definition name).isSome)
    (source : Source) (index : Nat)
    : ((∃ token, (language.parser grammar).Reads source index token)
        ∨ ∃ error, (language.parser grammar).Fails source index error)
      ∧ ∀ depth,
          language.depth source.size ≤ depth
          → language.parserWithin depth grammar source index
            = language.parser grammar source index := by
  have hanswer := hranked.parser_answers hperform hgrammar source index
  exact ⟨Parser.reads_or_fails hanswer, fun depth hle => parserWithin_eq_of_le hle hanswer⟩

end Language

-----------------------------------------------------------------------------------------
-- Languages of named rules
-----------------------------------------------------------------------------------------

theorem Parser.KeepsSpan.neverShortens {change : Token α → Except ParseError (Token α)}
    (h : KeepsSpan change)
    : NeverShortens change := by
  intro token changed hok
  obtain ⟨hindex, hsize⟩ := h.accepted hok
  rw [Token.stop, Token.stop, hindex, hsize]

theorem Language.mem_of_definition {rules : List (String × Grammar String Relabelling)}
    {name : String} {body : Grammar String Relabelling}
    (h : (ofRules rules).definition name = some body)
    : (name, body) ∈ rules := by
  obtain ⟨before, after, rfl, -⟩ := List.lookup_eq_some_iff.mp h
  simp

/-- A language is ranked if each of its rules is, since definitions are taken from the rules. -/
theorem Language.ranked_ofRules {rules : List (String × Grammar String Relabelling)}
    {rank : String → Nat}
    (h
      : ∀ rule ∈ rules,
          (∀ callee, .rule callee ∈ rule.2.allParts → (rules.lookup callee).isSome)
          ∧ ∀ callee, .rule callee ∈ rule.2.parts Grammar.isSolid → rank callee < rank rule.1)
    : (ofRules rules).Ranked rank := by
  constructor
  · intro name body hbody
    exact List.mem_map_of_mem (mem_of_definition hbody)
  · intro name body callee hbody
    exact (h _ (mem_of_definition hbody)).1 callee
  · intro name body callee hbody
    exact (h _ (mem_of_definition hbody)).2 callee

/-- Lists of letters and of such lists in parentheses. Neither an item nor a delimiter has to be
there, and the lookahead may enter a list as well.
-/
def listRules : List (String × Grammar String Relabelling) :=
  [("items",
    .list (.optional (.rule "item")) (some (.optional (.literal (.exact ","))))
      (some (.sequence [.literal (.exact ";"), .rule "items"] none))),
    ("item",
      .choice
        [.sequence
            [.ignored (.literal (.exact "(")), .rule "items", .literal (.exact ")")]
            none,
          .act (.label "letter") (.literal (.exact "é"))])]

/-- A list needs more than an item, and an item enters no list but behind a parenthesis. -/
theorem listRules_ranked
    : (Language.ofRules listRules).Ranked fun name => if name = "items" then 1 else 0 := by
  refine Language.ranked_ofRules ?_
  simp [listRules, Grammar.parts, Grammar.partsOfAll, Grammar.partsInOrder, Grammar.parts?,
    Grammar.isSolid, Literal.exact]

/-- In `,(é,é)`, the outer list starts with an item that is not there. -/
theorem listRules_answers
    : let language := Language.ofRules listRules
      let grammar : Grammar String Relabelling := .rule "items"
      let source := Source.ofString ",(é,é)"
      (∀ relabelling, Parser.NeverShortens (language.perform relabelling))
      ∧ language.Ranked (fun name => if name = "items" then 1 else 0)
      ∧ (∀ name, .rule name ∈ grammar.allParts → (language.definition name).isSome)
      ∧ ((∃ token, (language.parser grammar).Reads source 0 token)
        ∨ ∃ error, (language.parser grammar).Fails source 0 error)
      ∧ ∀ depth,
          language.depth source.size ≤ depth
          → language.parserWithin depth grammar source 0
            = language.parser grammar source 0 := by
  intro language grammar source
  have hperform (relabelling : Relabelling)
      : Parser.NeverShortens (language.perform relabelling) :=
    relabelling.keepsSpan.neverShortens
  have hgrammar (name : String) (hpart : .rule name ∈ grammar.allParts)
      : (language.definition name).isSome := by
    obtain rfl : name = "items" := by simpa [grammar, Grammar.parts] using hpart
    rfl
  exact ⟨hperform, listRules_ranked, hgrammar,
    Language.answers_of_ranked hperform listRules_ranked hgrammar source 0⟩

end TokenGrammar
