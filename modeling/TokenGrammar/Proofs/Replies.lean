import TokenGrammar.Reply

/-! Outcomes of replies that are put together from others. A trace never has an influence on an
outcome, so each law leaves it out.
-/

namespace TokenGrammar

variable {β γ : Type}

/-- An outcome has a result if it is a match, by cases on it. -/
theorem Outcome.result?_eq_some_iff {outcome : Outcome β} {result : β}
    : outcome.result? = some result ↔ outcome = .matched result := by
  cases outcome <;> simp [result?]

namespace Reply

@[simp]
theorem outcome_matched (result : β) : (matched result).outcome = .matched result :=
  rfl

@[simp]
theorem outcome_failed (error : ParseError)
    : (failed error : Reply β).outcome = .failed error :=
  rfl

@[simp]
theorem outcome_unresolved : (unresolved : Reply β).outcome = .unresolved :=
  rfl

@[simp]
theorem outcome_after (trace : Trace) (reply : Reply β)
    : (reply.after trace).outcome = reply.outcome :=
  rfl

@[simp]
theorem outcome_noting (event : Event) (reply : Reply β)
    : (reply.noting event).outcome = reply.outcome :=
  rfl

/-- What follows a reply matches if it does so after a match or after a failure, by cases on the
outcome of the reply.
-/
theorem outcome_fold_eq_matched_iff {reply : Reply β} {onMatch : β → Reply γ}
    {onFailure : ParseError → Reply γ} {result : γ}
    : (reply.fold onMatch onFailure).outcome = .matched result
      ↔ (∃ middle,
            reply.outcome = .matched middle ∧ (onMatch middle).outcome = .matched result)
        ∨ (∃ error,
            reply.outcome = .failed error
            ∧ (onFailure error).outcome = .matched result) := by
  rcases reply with ⟨trace, outcome⟩
  cases outcome <;> simp [fold]

/-- What follows a reply fails if it does so after a match or after a failure, by cases on the
outcome of the reply.
-/
theorem outcome_fold_eq_failed_iff {reply : Reply β} {onMatch : β → Reply γ}
    {onFailure : ParseError → Reply γ} {error : ParseError}
    : (reply.fold onMatch onFailure).outcome = .failed error
      ↔ (∃ middle,
            reply.outcome = .matched middle ∧ (onMatch middle).outcome = .failed error)
        ∨ (∃ first,
            reply.outcome = .failed first
            ∧ (onFailure first).outcome = .failed error) := by
  rcases reply with ⟨trace, outcome⟩
  cases outcome <;> simp [fold]

@[simp]
theorem outcome_bind_eq_matched_iff {reply : Reply β} {next : β → Reply γ} {result : γ}
    : (reply.bind next).outcome = .matched result
      ↔ ∃ middle,
          reply.outcome = .matched middle ∧ (next middle).outcome = .matched result := by
  simp [bind, outcome_fold_eq_matched_iff]

@[simp]
theorem outcome_bind_eq_failed_iff {reply : Reply β} {next : β → Reply γ}
    {error : ParseError}
    : (reply.bind next).outcome = .failed error
      ↔ (∃ middle,
            reply.outcome = .matched middle ∧ (next middle).outcome = .failed error)
        ∨ reply.outcome = .failed error := by
  simp [bind, outcome_fold_eq_failed_iff]

/-- A changed result comes from a result. -/
@[simp]
theorem outcome_map_eq_matched_iff {reply : Reply β} {change : β → γ} {result : γ}
    : (reply.map change).outcome = .matched result
      ↔ ∃ middle, reply.outcome = .matched middle ∧ change middle = result := by
  simp [map]

@[simp]
theorem outcome_map_eq_failed_iff {reply : Reply β} {change : β → γ} {error : ParseError}
    : (reply.map change).outcome = .failed error ↔ reply.outcome = .failed error := by
  simp [map]

@[simp]
theorem outcome_recover_eq_matched_iff {reply : Reply β}
    {handle : ParseError → Reply β} {result : β}
    : (reply.recover handle).outcome = .matched result
      ↔ reply.outcome = .matched result
        ∨ ∃ error,
            reply.outcome = .failed error ∧ (handle error).outcome = .matched result := by
  simp [recover, outcome_fold_eq_matched_iff]

@[simp]
theorem outcome_recover_eq_failed_iff {reply : Reply β} {handle : ParseError → Reply β}
    {error : ParseError}
    : (reply.recover handle).outcome = .failed error
      ↔ ∃ first,
          reply.outcome = .failed first ∧ (handle first).outcome = .failed error := by
  simp [recover, outcome_fold_eq_failed_iff]

/-- What follows a reply comes to no answer if the reply does not, or if what follows does not. -/
theorem outcome_fold_eq_unresolved_iff {reply : Reply β} {onMatch : β → Reply γ}
    {onFailure : ParseError → Reply γ}
    : (reply.fold onMatch onFailure).outcome = .unresolved
      ↔ reply.outcome = .unresolved
        ∨ (∃ middle,
            reply.outcome = .matched middle ∧ (onMatch middle).outcome = .unresolved)
        ∨ (∃ error,
            reply.outcome = .failed error ∧ (onFailure error).outcome = .unresolved) := by
  rcases reply with ⟨trace, outcome⟩
  cases outcome <;> simp [fold]

/-- What follows a reply matters only for the outcome that the reply has, by cases on it. -/
theorem fold_congr {reply : Reply β} {onMatch onMatch' : β → Reply γ}
    {onFailure onFailure' : ParseError → Reply γ}
    (hmatch
      : ∀ result, reply.outcome = .matched result → onMatch result = onMatch' result)
    (hfailure
      : ∀ error, reply.outcome = .failed error → onFailure error = onFailure' error)
    : reply.fold onMatch onFailure = reply.fold onMatch' onFailure' := by
  rcases reply with ⟨trace, outcome⟩
  cases outcome with
  | matched result => simp only [fold, hmatch result rfl]
  | failed error => simp only [fold, hfailure error rfl]
  | unresolved => rfl

/-- What goes on after a match matters only for the result that matched, since a failure stays
as it is.
-/
theorem bind_congr {reply : Reply β} {next next' : β → Reply γ}
    (h : ∀ result, reply.outcome = .matched result → next result = next' result)
    : reply.bind next = reply.bind next' :=
  fold_congr h fun _ _ => rfl

@[simp]
theorem outcome_bind_eq_unresolved_iff {reply : Reply β} {next : β → Reply γ}
    : (reply.bind next).outcome = .unresolved
      ↔ reply.outcome = .unresolved
        ∨ ∃ middle,
            reply.outcome = .matched middle ∧ (next middle).outcome = .unresolved := by
  simp [bind, outcome_fold_eq_unresolved_iff]

@[simp]
theorem outcome_map_eq_unresolved_iff {reply : Reply β} {change : β → γ}
    : (reply.map change).outcome = .unresolved ↔ reply.outcome = .unresolved := by
  simp [map]

@[simp]
theorem outcome_recover_eq_unresolved_iff {reply : Reply β}
    {handle : ParseError → Reply β}
    : (reply.recover handle).outcome = .unresolved
      ↔ reply.outcome = .unresolved
        ∨ ∃ error,
            reply.outcome = .failed error ∧ (handle error).outcome = .unresolved := by
  simp [recover, outcome_fold_eq_unresolved_iff]

end Reply

end TokenGrammar
