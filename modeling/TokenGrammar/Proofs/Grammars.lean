import TokenGrammar.Grammar.Basic

/-! Induction on grammars, whose parts may be lists of grammars and grammars that may be absent, and
on the depth to which the rules of a language are nested.
-/

namespace TokenGrammar.Grammar

variable {ρ κ α : Type}

/-- What holds of each grammar if it holds of the parts of the grammar, holds of all of them.
This is the recursion of the data type, with one hypothesis for all grammars of a list.
-/
@[induction_eliminator]
theorem induction {holds : Grammar ρ κ → Prop}
    (literal : ∀ expected, holds (.literal expected))
    (pattern : ∀ expected, holds (.pattern expected))
    (fail : ∀ message, holds (.fail message))
    (emit : ∀ size kind, holds (.emit size kind))
    (ignored : ∀ body, holds body → holds (.ignored body))
    (optional : ∀ body, holds body → holds (.optional body))
    (choice : ∀ bodies, (∀ body ∈ bodies, holds body) → holds (.choice bodies))
    (sequence
      : ∀ bodies ahead,
          (∀ body ∈ bodies, holds body)
          → (∀ body ∈ ahead, holds body)
          → holds (.sequence bodies ahead))
    (list
      : ∀ item delimiter ahead,
          holds item
          → (∀ body ∈ delimiter, holds body)
          → (∀ body ∈ ahead, holds body)
          → holds (.list item delimiter ahead))
    (act : ∀ action body, holds body → holds (.act action body))
    (reword : ∀ rewording body, holds body → holds (.reword rewording body))
    (rule : ∀ name, holds (.rule name))
    (grammar : Grammar ρ κ)
    : holds grammar :=
  @Grammar.rec ρ κ holds (fun bodies => ∀ body ∈ bodies, holds body)
    (fun body? => ∀ body ∈ body?, holds body) literal pattern fail emit ignored optional choice
    sequence list act reword rule (by simp)
    (fun _ _ head rest => List.forall_mem_cons.mpr ⟨head, rest⟩) (by simp)
    (fun _ body _ hmem => Option.mem_some.mp hmem ▸ body) grammar

section Denotation

variable {perform : κ → Token α → Except ParseError (Token α)} {resolve : ρ → Parser α}

/-- The parsers of several grammars are those of each of them, by induction on the list. -/
theorem parsers_eq_map (bodies : List (Grammar ρ κ))
    : parsers perform resolve bodies = bodies.map (parser perform resolve) := by
  induction bodies with
  | nil => rfl
  | cons body rest ih => rw [parsers, ih, List.map_cons]

theorem parser?_eq_map (body : Option (Grammar ρ κ))
    : parser? perform resolve body = body.map (parser perform resolve) := by
  cases body <;> rfl

theorem forall_mem_parsers {holds : Parser α → Prop} {bodies : List (Grammar ρ κ)}
    : (∀ parser ∈ parsers perform resolve bodies, holds parser)
      ↔ ∀ body ∈ bodies, holds (body.parser perform resolve) := by
  rw [parsers_eq_map, List.forall_mem_map]

/-- What holds of the parser of a grammar that may be absent holds if there is one. -/
theorem forall_mem_parser? {holds : Parser α → Prop} {body? : Option (Grammar ρ κ)}
    : (∀ parser ∈ parser? perform resolve body?, holds parser)
      ↔ ∀ body ∈ body?, holds (body.parser perform resolve) := by
  cases body? <;> simp [parser?]

end Denotation

end TokenGrammar.Grammar

namespace TokenGrammar.Language

variable {ρ κ α : Type} {language : Language ρ κ α}

/-- What holds where there is no answer, and of each definition if it holds of the rules that
are nested in it, holds of all rules, by induction on how deep they may be nested.
-/
theorem rule_induction (holds : ρ → Parser α → Prop)
    (unresolved : ∀ name, holds name fun _ _ => .unresolved)
    (defined
      : ∀ depth name body,
          language.definition name = some body
          → (∀ callee, holds callee (language.rule depth callee))
          → holds name (body.parser language.perform (language.rule depth)))
    (depth : Nat) (name : ρ)
    : holds name (language.rule depth name) := by
  induction depth generalizing name with
  | zero => exact unresolved name
  | succ depth ih =>
      unfold rule
      cases hbody : language.definition name with
      | none => exact unresolved name
      | some body => exact defined depth name body hbody ih

end TokenGrammar.Language
