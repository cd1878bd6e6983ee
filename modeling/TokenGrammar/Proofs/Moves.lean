import Mathlib.Data.List.Forall2
import TokenGrammar.Grammar.Relabelling
import TokenGrammar.Proofs.Replies

/-! Tokens, errors and outcomes that are the same as others, some bytes further on. Everything in
a token moves along with it, and so do the causes of an error.
-/

namespace TokenGrammar

variable {α β γ : Type} {distance : Nat}

-----------------------------------------------------------------------------------------
-- Tokens further on
-----------------------------------------------------------------------------------------

mutual

/-- The token so many bytes further on, together with the tokens in it. -/
def Token.moved (distance : Nat) : Token α → Token α
  | ⟨index, size, kind, value⟩ => ⟨distance + index, size, kind, value.moved distance⟩

/-- The value with all tokens in it so many bytes further on. -/
def Value.moved (distance : Nat) : Value α → Value α
  | .none => .none
  | .text content => .text content
  | .groups content => .groups content
  | .token content => .token (content.moved distance)
  | .tokens content => .tokens (movedTokens distance content)
  | .custom content => .custom content

/-- All tokens so many bytes further on. -/
def movedTokens (distance : Nat) : List (Token α) → List (Token α)
  | [] => []
  | token :: rest => token.moved distance :: movedTokens distance rest

end

namespace Token

variable (token : Token α)

/-- A token further on has an index that is so much greater. -/
@[simp]
theorem moved_index : (token.moved distance).index = distance + token.index := by
  cases token
  rfl

/-- A token further on is as long as it was. -/
@[simp]
theorem moved_size : (token.moved distance).size = token.size := by
  cases token
  rfl

/-- A token further on holds what it held, further on as well. -/
@[simp]
theorem moved_value : (token.moved distance).value = token.value.moved distance := by
  cases token
  rfl

/-- A token further on ends so much later. -/
@[simp]
theorem moved_stop : (token.moved distance).stop = distance + token.stop := by
  simp only [stop, moved_index, moved_size, Nat.add_assoc]

@[simp]
theorem moved_isIgnored : (token.moved distance).isIgnored = token.isIgnored := by
  cases token
  rfl

/-- A token is ignored further on as it is here. -/
@[simp]
theorem moved_ignore : (token.moved distance).ignore = token.ignore.moved distance := by
  cases token
  rfl

/-- Moving several tokens is moving each of them, by induction on the list. -/
theorem movedTokens_eq_map (tokens : List (Token α))
    : movedTokens distance tokens = tokens.map (Token.moved distance) := by
  induction tokens with
  | nil => rfl
  | cons token rest ih => rw [movedTokens, ih, List.map_cons]

end Token

-----------------------------------------------------------------------------------------
-- Errors and outcomes further on
-----------------------------------------------------------------------------------------

/-- The second error is of the same kind as the first, at an index that is so much greater, and its
causes are those of the first one in the same way. Their wordings may differ.
-/
inductive ParseError.MovesTo (distance : Nat) : ParseError → ParseError → Prop where
  | intro {error moved : ParseError} (kind : moved.kind = error.kind)
    (index : moved.index = distance + error.index)
    (causes : List.Forall₂ (MovesTo distance) error.causes moved.causes)
    : MovesTo distance error moved

namespace ParseError.MovesTo

variable {error moved : ParseError}

/-- An error further on has an index that is so much greater. -/
theorem index_eq (h : error.MovesTo distance moved) : moved.index = distance + error.index := by
  cases h with
  | intro _ index _ => exact index

theorem leaf (hkind : moved.kind = error.kind) (hindex : moved.index = distance + error.index)
    (hcauses : error.causes = []) (hcauses' : moved.causes = [])
    : error.MovesTo distance moved := by
  refine .intro hkind hindex ?_
  rw [hcauses, hcauses']
  exact .nil

theorem alternatives {causes causes' : List ParseError} {index index' : Nat}
    (hindex : index' = distance + index) (h : List.Forall₂ (MovesTo distance) causes causes')
    : (ParseError.alternatives causes index).MovesTo distance (.alternatives causes' index') :=
  .intro rfl hindex h

end ParseError.MovesTo

/-- A relation between errors agrees with moving if it holds of errors that are the same so many
bytes further on, and of merged ones if it holds of their causes.
-/
structure ParseError.Agreement (distance : Nat) (agrees : ParseError → ParseError → Prop)
    : Prop where
  moves : ∀ {error moved}, error.MovesTo distance moved → agrees error moved
  merged
    : ∀ {causes causes'} index,
        List.Forall₂ agrees causes causes'
        → agrees (.alternatives causes index) (.alternatives causes' (distance + index))

/-- Moving agrees with itself, because merged errors are further on if their causes are. -/
theorem ParseError.agreement_movesTo : ParseError.Agreement distance (MovesTo distance) where
  moves := id
  merged _ := .alternatives rfl

theorem ParseError.agreement_true : ParseError.Agreement distance fun _ _ => True where
  moves _ := trivial
  merged _ _ := trivial

/-- The second outcome is the first one moved on: its result is the moved one, or its error is
related to the error of the first, or neither comes to an answer.
-/
inductive Outcome.MovesTo (agrees : ParseError → ParseError → Prop) (move : β → β)
    : Outcome β → Outcome β → Prop where
  | matched (result : β) : MovesTo agrees move (.matched result) (.matched (move result))
  | failed {error moved : ParseError} (related : agrees error moved)
    : MovesTo agrees move (.failed error) (.failed moved)
  | unresolved : MovesTo agrees move .unresolved .unresolved

namespace Outcome.MovesTo

variable {agrees : ParseError → ParseError → Prop} {move : β → β} {change : γ → γ}

/-- What follows two replies is as far apart as they are, if what goes on is, by cases on their
outcomes.
-/
theorem fold {reply other : Reply β} {onMatch onMatch' : β → Reply γ}
    {onFailure onFailure' : ParseError → Reply γ}
    (h : MovesTo agrees move reply.outcome other.outcome)
    (hmatch
      : ∀ result,
          reply.outcome = .matched result
          → MovesTo agrees change (onMatch result).outcome (onMatch' (move result)).outcome)
    (hfailure
      : ∀ error moved,
          agrees error moved
          → MovesTo agrees change (onFailure error).outcome (onFailure' moved).outcome)
    : MovesTo agrees change (reply.fold onMatch onFailure).outcome
        (other.fold onMatch' onFailure').outcome := by
  rcases reply with ⟨trace, outcome⟩
  rcases other with ⟨trace', outcome'⟩
  cases h with
  | matched result => exact hmatch result rfl
  | failed related => exact hfailure _ _ related
  | unresolved => exact .unresolved

/-- What goes on after matches is as far apart as the results, since related errors stay as they
are.
-/
theorem bind {reply other : Reply β} {next next' : β → Reply γ}
    (h : MovesTo agrees move reply.outcome other.outcome)
    (hnext
      : ∀ result,
          reply.outcome = .matched result
          → MovesTo agrees change (next result).outcome (next' (move result)).outcome)
    : MovesTo agrees change (reply.bind next).outcome (other.bind next').outcome :=
  h.fold hnext fun _ _ related => .failed related

/-- Changed results are as far apart as the results, if the changes agree with moving. -/
theorem map {reply other : Reply β} {convert convert' : β → γ}
    (h : MovesTo agrees move reply.outcome other.outcome)
    (hconvert : ∀ result, convert' (move result) = change (convert result))
    : MovesTo agrees change (reply.map convert).outcome (other.map convert').outcome := by
  refine h.bind fun result _ => ?_
  rw [Function.comp_apply, Function.comp_apply, hconvert]
  exact .matched (convert result)

/-- What goes on after related errors is as far apart as the errors, since results stay as they
are.
-/
theorem recover {reply other : Reply β} {handle handle' : ParseError → Reply β}
    (h : MovesTo agrees move reply.outcome other.outcome)
    (hhandle
      : ∀ error moved,
          agrees error moved
          → MovesTo agrees move (handle error).outcome (handle' moved).outcome)
    : MovesTo agrees move (reply.recover handle).outcome (other.recover handle').outcome :=
  h.fold (fun result _ => .matched result) hhandle

/-- If neither is an answer or both are, one of them tells which is the case. -/
theorem unresolved_iff {outcome other : Outcome β} (h : MovesTo agrees move outcome other)
    : other = .unresolved ↔ outcome = .unresolved := by
  cases h <;> simp

end Outcome.MovesTo

-----------------------------------------------------------------------------------------
-- Changes that do not depend on where a token is
-----------------------------------------------------------------------------------------

/-- The change does the same with tokens so many bytes further on. -/
structure Parser.MovesAlong (distance : Nat) (change : Token α → Except ParseError (Token α))
    : Prop where
  accepted
    : ∀ {token changed},
        change token = .ok changed
        → change (token.moved distance) = .ok (changed.moved distance)
  rejected
    : ∀ {token error},
        change token = .error error
        → ∃ moved, change (token.moved distance) = .error moved ∧ error.MovesTo distance moved

/-- The change does the same with errors that are related. -/
def Parser.RelatesErrors (agrees : ParseError → ParseError → Prop)
    (change : ParseError → ParseError)
    : Prop :=
  ∀ {error moved}, agrees error moved → agrees (change error) (change moved)

theorem Rewording.relatesErrors_replaced (message : String)
    : Parser.RelatesErrors (ParseError.MovesTo distance) (.replaced message : Rewording) :=
  fun h => .leaf rfl h.index_eq rfl rfl

/-- An error that a message is merged with is further on, and so are the message and both together.
-/
theorem Rewording.relatesErrors_merged (message : String)
    : Parser.RelatesErrors (ParseError.MovesTo distance) (.merged message : Rewording) :=
  fun h => .alternatives h.index_eq (.cons h (.cons (relatesErrors_replaced message h) .nil))

namespace Value

variable (value : Value α)

@[simp]
theorem moved_fullText : (value.moved distance).fullText = value.fullText := by
  cases value <;> rfl

@[simp]
theorem moved_capturedText : (value.moved distance).capturedText = value.capturedText := by
  cases value <;> rfl

end Value

/-- What is computed from a token is further on if the token is, by cases on the projection. -/
theorem Projection.apply_moved (projection : Projection) (token : Token Int64)
    : projection.apply (token.moved distance) = (projection.apply token).moved distance := by
  cases projection with
  | none => rfl
  | keep => exact token.moved_value
  | wrap => rfl
  | full | capture => simp [apply, Value.moved]
  | first =>
      simp only [apply, Token.moved_value]
      rcases token.value with _ | _ | _ | _ | (_ | _) | _ <;> rfl
  | count =>
      simp only [apply, Token.moved_value]
      cases token.value <;> simp [Value.moved, Value.tokens?, Token.movedTokens_eq_map]
  | size => simp [apply, Value.moved]
  | integer =>
      simp only [apply, Token.moved_value, Value.moved_fullText]
      cases int64? token.value.fullText.toList <;> rfl

/-- A relabelled token is further on if the token is, by cases on what changes. -/
theorem Relabelling.apply_moved (relabelling : Relabelling) (token : Token Int64)
    : relabelling.apply (token.moved distance) = (relabelling.apply token).moved distance := by
  cases relabelling with
  | produce name projection =>
      rw [apply, projection.apply_moved]
      rcases token with ⟨index, size, kind, value⟩
      rfl
  | label name =>
      rcases token with ⟨index, size, kind, value⟩
      rfl
  | ignore => exact token.moved_ignore
  | same => rfl

theorem Relabelling.movesAlong (relabelling : Relabelling)
    : Parser.MovesAlong distance fun token => .ok (relabelling.apply token) := by
  constructor
  · intro token changed hok
    obtain rfl := Except.ok.inj hok
    rw [relabelling.apply_moved]
  · intro token error herror
    contradiction

end TokenGrammar
