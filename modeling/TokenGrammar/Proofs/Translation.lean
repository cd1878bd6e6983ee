import TokenGrammar.Proofs.Depth
import TokenGrammar.Regex.Pattern

/-! Text in front of a source. Where nothing looks back, a grammar reads behind such a text what it
reads from the source alone, and fails alike, at offsets that are greater by the bytes in front.
-/

namespace TokenGrammar

variable {ρ κ α : Type}

/-- Behind a text in front of it, a source goes on as it does alone, since each split of it is
one of the longer source behind that text.
-/
theorem Source.aligned_append (front : List Char) (source : Source)
    : source.Aligned (.ofChars (front ++ source.chars)) (byteLength front) 0 where
  rest := by
    intro offset _
    refine Option.ext fun rest => rest?_eq_some_iff.trans (Iff.trans ?_ rest?_eq_some_iff.symm)
    constructor
    · rintro ⟨front', hsplit, hlength⟩
      obtain ⟨text, rfl, hchars⟩ := exists_between_of_byteLength_le hsplit (by omega)
      rw [byteLength_append] at hlength
      exact ⟨text, hchars, by omega⟩
    · rintro ⟨text, hchars, rfl⟩
      exact ⟨front ++ text, by simp [ofChars, hchars], byteLength_append front text⟩
  left := by
    intro offset _
    rw [size_eq, size_eq]
    simp only [ofChars, byteLength_append, Nat.add_sub_add_left]

/-- No pattern in the grammar looks back, and all rewordings do the same with errors further on. -/
structure Grammar.LooksOnward (grammar : Grammar ρ κ) : Prop where
  patterns : ∀ expected, .pattern expected ∈ grammar.allParts → expected.matcher.looksBack = false
  rewordings
    : ∀ rewording body,
        .reword rewording body ∈ grammar.allParts
        → ∀ distance, Parser.RelatesErrors (ParseError.MovesTo distance) rewording

/-- Where nothing looks back, what is in a grammar moves along between sources that go on alike. -/
theorem Grammar.LooksOnward.relocatable {grammar : Grammar ρ κ} {source other : Source}
    {distance start : Nat} (hgrammar : grammar.LooksOnward)
    (h : source.Aligned other distance start)
    : grammar.Relocatable α (ParseError.MovesTo distance) source other distance start where
  patterns expected hpart :=
    Parser.relocates_pattern ParseError.agreement_movesTo h (hgrammar.patterns expected hpart)
  rewordings rewording body hpart := hgrammar.rewordings rewording body hpart distance

namespace Language

variable {language : Language ρ κ α} {grammar : Grammar ρ κ} {source other : Source}
  {depth distance index : Nat}

/-- Within more depth than is reserved for the source, a grammar comes to the same outcome, by
cases on whether it comes to an answer within that.
-/
theorem Relocatable.outcome_parserWithin (hlanguage : language.Relocatable)
    (hle : language.depth source.size ≤ depth)
    : (language.parserWithin depth grammar source index).outcome
      = (language.parser grammar source index).outcome := by
  by_cases hanswer : (language.parser grammar source index).outcome = .unresolved
  · rw [hanswer]
    by_contra hdeeper
    rw [hlanguage.parser_eq_of_answers hdeeper] at hanswer
    exact hdeeper hanswer
  · exact congrArg Reply.outcome (parserWithin_eq_of_le hle hanswer)

/-- A grammar of a relocatable language reads from a source that goes on alike the same at a
distance, if nothing looks back. Both are read within the greater one of the two depths.
-/
theorem Relocatable.parser_relocates (hlanguage : language.Relocatable)
    (h : source.Aligned other distance 0) (hgrammar : grammar.LooksOnward)
    (hrules : ∀ {name body}, language.definition name = some body → body.LooksOnward)
    : (language.parser grammar).Relocates (ParseError.MovesTo distance) source other distance
        0 := by
  intro index hstart
  have hsize : source.size ≤ other.size := by
    have := h.left (Nat.zero_le 0)
    omega
  have hdepth : language.depth source.size ≤ language.depth other.size :=
    Nat.mul_le_mul_left _ (Nat.add_le_add_right hsize 2)
  -- The longer source reserves more depth, so both are read at that depth.
  have hresolve (name : ρ)
      : (language.rule (language.depth other.size) name).Relocates
          (ParseError.MovesTo distance) source other distance 0 :=
    rule_relocates ParseError.agreement_movesTo h hlanguage.neverShortens
      (hlanguage.movesAlong distance) (fun hbody => (hrules hbody).relocatable h) _ name
  have hparser
      : (language.parserWithin (language.depth other.size) grammar).Relocates
          (ParseError.MovesTo distance) source other distance 0 :=
    Grammar.relocates ParseError.agreement_movesTo h hlanguage.neverShortens
      (hlanguage.movesAlong distance) (rule_forward hlanguage.neverShortens _) hresolve
      (hgrammar.relocatable h)
  rw [← hlanguage.outcome_parserWithin hdepth]
  exact hparser index hstart

/-- Languages of named rules are relocatable, for their actions are relabellings. -/
theorem relocatable_ofRules (rules : List (String × Grammar String Relabelling))
    : (ofRules rules).Relocatable where
  named hbody := List.mem_map_of_mem (mem_of_definition hbody)
  neverShortens relabelling := relabelling.keepsSpan.neverShortens
  movesAlong _ relabelling := relabelling.movesAlong

/-- Behind a text in front of a source, a grammar of named rules without a pattern that looks back
comes to the outcome that it comes to on the source alone, at an index that is greater by the
bytes in front: either both succeed, and then with tokens that only differ in their indices, or
both fail, and then with errors whose kinds and causes are the same, or neither comes to an
answer.
-/
theorem outcome_behind_front {rules : List (String × Grammar String Relabelling)}
    {grammar : Grammar String Relabelling} (hrules : ∀ rule ∈ rules, rule.2.LooksOnward)
    (hgrammar : grammar.LooksOnward) (front : List Char) (source : Source) (index : Nat)
    : let distance := byteLength front
      let parser := (ofRules rules).parser grammar
      Outcome.MovesTo (ParseError.MovesTo distance) (Token.moved distance)
        (parser source index).outcome
        (parser (.ofChars (front ++ source.chars)) (distance + index)).outcome := by
  have hdefinitions {name : String} {body : Grammar String Relabelling}
      (hbody : (ofRules rules).definition name = some body)
      : body.LooksOnward :=
    hrules _ (mem_of_definition hbody)
  exact (relocatable_ofRules rules).parser_relocates (source.aligned_append front) hgrammar
    hdefinitions index (Nat.zero_le index)

/-- Words and groups of them in parentheses, where a word that is missing has a message of its own.
-/
def groupRules : List (String × Grammar String Relabelling) :=
  [("group",
    .choice
      [.act (.produce "word" .full)
          (.reword (.merged "no word")
            (.pattern (Regex.pattern (.oneOrMore (.oneOf (.range 'a' 'z'))) "[a-z]+"))),
        .sequence
          [.ignored (.literal (.exact "(")),
            .list (.rule "group") (some (.literal (.exact ","))) none,
            .ignored (.literal (.exact ")"))]
          none])]

theorem groupRules_lookOnward : ∀ rule ∈ groupRules, rule.2.LooksOnward := by
  refine List.forall_mem_singleton.mpr ⟨fun expected hpart => ?_, fun rewording body hpart => ?_⟩
  · simp [Grammar.parts, Grammar.partsOfAll, Grammar.partsInOrder, Grammar.parts?] at hpart
    rw [hpart]
    rfl
  · simp [Grammar.parts, Grammar.partsOfAll, Grammar.partsInOrder, Grammar.parts?] at hpart
    rw [hpart.1]
    exact fun distance => Rewording.relatesErrors_merged "no word"

/-- The group `(a,(bc))` is read alike alone and behind two characters of two bytes each. -/
theorem group_behind_front
    : let parser := (ofRules groupRules).parser (.rule "group")
      let source := Source.ofString "(a,(bc))"
      let front := "éé".toList
      (∀ rule ∈ groupRules, rule.2.LooksOnward)
      ∧ (.rule "group" : Grammar String Relabelling).LooksOnward
      ∧ (parser source 0).outcome.isMatched
      ∧ Outcome.MovesTo (ParseError.MovesTo 4) (Token.moved 4) (parser source 0).outcome
          (parser (.ofChars (front ++ source.chars)) 4).outcome := by
  intro parser source front
  have hgrammar : (.rule "group" : Grammar String Relabelling).LooksOnward := by
    constructor <;> simp [Grammar.parts]
  exact ⟨groupRules_lookOnward, hgrammar, by decide +kernel,
    outcome_behind_front groupRules_lookOnward hgrammar front source 0⟩

end Language

end TokenGrammar
