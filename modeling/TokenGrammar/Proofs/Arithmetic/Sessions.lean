import TokenGrammar.Arithmetic.Session
import TokenGrammar.Proofs.Arithmetic.Assignments
import TokenGrammar.Proofs.Arithmetic.Termination

/-! The environments of a session. Only bindings that can be read and assignments that are carried
out change them, and they stay when a later part of an expression fails.
-/

namespace TokenGrammar.Arithmetic

/-- A whole source is read or refused, because the rule of expressions comes to an answer at
every offset.
-/
theorem parse_answers (source : Source) : (parse source).outcome ≠ .unresolved := by
  have hanswers (index : Nat)
      : (Rule.expression.parser source index).outcome ≠ .unresolved := by
    refine rule_answers ?_
    have hdepth : language.depth source.size = 9 * (source.size + 2) := rfl
    have := Rule.expression.rank_lt
    omega
  intro h
  simp only [parse, Reply.outcome_bind_eq_unresolved_iff, hanswers, false_or] at h
  obtain ⟨tree, -, hrest⟩ := h
  split at hrest <;> contradiction

-----------------------------------------------------------------------------------------
-- Steps
-----------------------------------------------------------------------------------------

/-- What a step comes to and which environment it leaves. A text that is no binding and one that
is no expression leave the environment as it was, and an expression leaves the effects of its
evaluation. If the expression has a value, these are the effects of all assignments in it.
-/
inductive Step.Changes : Step → Environment → StepResult → Environment → Prop where
  | bound {text name : String} {value : Float} {environment : Environment}
      (read : readBinding text = .ok (name, value))
      : Changes (.binding text) environment .bound (environment.bind name value)
  | invalidBinding {text : String} {error : BindingError} {environment : Environment}
      (read : readBinding text = .error error)
      : Changes (.binding text) environment (.invalidBinding error) environment
  | parseError {text : String} {error : ParseError} {environment : Environment}
      (read : (parse (.ofString text)).outcome = .failed error)
      : Changes (.expression text) environment (.parseError error) environment
  | value {text : String} {tree : Tree} {value : Float} {environment later : Environment}
      (read : (parse (.ofString text)).outcome = .matched tree)
      (effects : Effects environment tree (.ok value, later))
      (complete : reached tree = assignments tree)
      : Changes (.expression text) environment (.value value) later
  | evaluationError {text : String} {tree : Tree} {error : EvaluationError}
      {environment later : Environment}
      (read : (parse (.ofString text)).outcome = .matched tree)
      (effects : Effects environment tree (.error error, later))
      : Changes (.expression text) environment (.evaluationError error) later

/-- The names to which a step can give values: that of a binding, or those to which an expression
assigns.
-/
def Step.targets : Step → List String
  | .binding text =>
      match readBinding text with
      | .ok (name, _) => [name]
      | .error _ => []
  | .expression text => (parse (.ofString text)).outcome.result?.elim [] Arithmetic.targets

/-- A step that is taken has one of the changes, by cases on what its text is read as. -/
theorem Step.run_changes (step : Step) (environment : Environment)
    : step.Changes environment (step.run environment).1 (step.run environment).2 := by
  unfold Step.run
  cases step with
  | binding text =>
      dsimp only
      rcases hread : readBinding text with error | ⟨name, value⟩
      · exact .invalidBinding hread
      · exact .bound hread
  | expression text =>
      dsimp only
      rcases hread : (parse (.ofString text)).outcome with tree | error | _
      · have heffects := evaluate_effects tree environment
        dsimp only
        rcases hevaluate : evaluate tree environment with ⟨error | value, later⟩ <;>
          rw [hevaluate] at heffects
        · exact .evaluationError hread heffects
        · exact .value hread heffects (reached_eq_assignments tree hevaluate)
      · exact .parseError hread
      · exact absurd hread (parse_answers _)

/-- A step that is taken removes no binding, by cases on what it changes. -/
theorem Step.isSome_get?_run {name : String} {environment : Environment} (step : Step)
    (h : (environment.get? name).isSome)
    : ((step.run environment).2.get? name).isSome := by
  have hchanges := step.run_changes environment
  generalize (step.run environment).1 = result at hchanges
  generalize (step.run environment).2 = later at hchanges
  cases hchanges with
  | bound _ => exact Environment.isSome_get?_bind h
  | invalidBinding _ => exact h
  | parseError _ => exact h
  | value _ effects _ => exact effects.isSome_get? h
  | evaluationError _ effects => exact effects.isSome_get? h

/-- A step that is taken changes no value but those of its targets, by cases on what it changes.
-/
theorem Step.get?_run_of_not_mem {name : String} {step : Step} {environment : Environment}
    (h : name ∉ step.targets)
    : (step.run environment).2.get? name = environment.get? name := by
  have hchanges := step.run_changes environment
  generalize (step.run environment).1 = result at hchanges
  generalize (step.run environment).2 = later at hchanges
  cases hchanges with
  | @bound text target value _ read =>
      have hne : name ≠ target := by simpa [Step.targets, read] using h
      rw [Environment.get?_bind, if_neg hne]
  | invalidBinding _ => rfl
  | parseError _ => rfl
  | value read effects _ =>
      rw [Step.targets, read] at h
      exact effects.get?_of_not_mem h
  | evaluationError read effects =>
      rw [Step.targets, read] at h
      exact effects.get?_of_not_mem h

-----------------------------------------------------------------------------------------
-- Sessions
-----------------------------------------------------------------------------------------

/-- The results and environments of steps that are taken one after the other. Each starts in the
environment that the one in front of it leaves, what is bound there stays bound, and a name keeps
its value unless it is a target of the step.
-/
inductive Session : Environment → List Step → List (StepResult × Environment) → Prop where
  | nil (environment : Environment) : Session environment [] []
  | cons {environment later : Environment} {step : Step} {steps : List Step}
      {result : StepResult} {shown : List (StepResult × Environment)}
      (changes : step.Changes environment result later)
      (bound : ∀ name, (environment.get? name).isSome → (later.get? name).isSome)
      (kept : ∀ name ∉ step.targets, later.get? name = environment.get? name)
      (rest : Session later steps shown)
      : Session environment (step :: steps) ((result, later) :: shown)

/-- Steps that are taken one after the other make up a session, by induction on them. -/
theorem runSession_session (start : Environment) (steps : List Step)
    : Session start steps (runSession start steps) := by
  induction steps generalizing start with
  | nil => exact .nil start
  | cons step steps ih =>
      exact .cons (step.run_changes start) (fun _ => step.isSome_get?_run)
        (fun _ => Step.get?_run_of_not_mem) (ih _)

namespace Session

variable {start : Environment} {steps : List Step} {shown : List (StepResult × Environment)}
  {name : String}

/-- What is bound at the start of a session is bound in all its environments, by induction on
the session.
-/
theorem isSome_get? (h : Session start steps shown) (hstart : (start.get? name).isSome)
    : ∀ last ∈ shown, (last.2.get? name).isSome := by
  induction h with
  | nil environment => simp
  | cons _ bound _ _ ih =>
      have hlater := bound name hstart
      intro last hlast
      rcases List.mem_cons.mp hlast with rfl | hrest
      · exact hlater
      · exact ih hlater last hrest

/-- A name that is no target of any step has the same value in all environments of a session, by
induction on it.
-/
theorem get?_of_not_mem (h : Session start steps shown)
    (hsteps : ∀ step ∈ steps, name ∉ step.targets)
    : ∀ last ∈ shown, last.2.get? name = start.get? name := by
  induction h with
  | nil environment => simp
  | cons _ _ kept _ ih =>
      have hlater := kept name (hsteps _ List.mem_cons_self)
      have hrest := ih fun step hstep => hsteps step (List.mem_cons_of_mem _ hstep)
      intro last hlast
      rcases List.mem_cons.mp hlast with rfl | htail
      · exact hlater
      · exact (hrest last htail).trans hlater

end Session

/-- Whatever the steps of a session are, each only changes its environment by a binding that was
read or by the assignments that its expression carried out, one after the other. So no binding is
ever removed and a name keeps its value if no step assigns to it; and an assignment whose right
side fails leaves what its right side leaves, without a value for its own name. A name that is bound
reads as its new value from then on, and all other names read as before.
-/
theorem session_environments (start : Environment) (steps : List Step)
    : Session start steps (runSession start steps)
      ∧ (∀ last ∈ runSession start steps, ∀ name,
          (start.get? name).isSome → (last.2.get? name).isSome)
      ∧ (∀ last ∈ runSession start steps, ∀ name,
          (∀ step ∈ steps, name ∉ step.targets) → last.2.get? name = start.get? name)
      ∧ (∀ index size kind name right environment later error,
          evaluate right environment = (.error error, later)
          → evaluate ⟨index, size, kind, .custom (.assignment name right)⟩ environment
              = (.error error, later)
            ∧ (name ∉ targets right → later.get? name = environment.get? name))
      ∧ ∀ (environment : Environment) name value other,
          (environment.bind name value).get? other
            = if other = name then some value else environment.get? other := by
  have hsession := runSession_session start steps
  refine ⟨hsession, fun last hlast name h => hsession.isSome_get? h last hlast,
    fun last hlast name h => hsession.get?_of_not_mem h last hlast, ?_,
    fun environment name value other => environment.get?_bind name other value⟩
  intro index size kind name right environment later error h
  refine ⟨evaluate_assignment_of_error h, fun hname => ?_⟩
  have heffects := evaluate_effects right environment
  rw [h] at heffects
  exact heffects.get?_of_not_mem hname

end TokenGrammar.Arithmetic
