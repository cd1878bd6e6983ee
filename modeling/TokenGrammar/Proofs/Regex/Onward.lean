import TokenGrammar.Regex.Match

/-! Regular expressions that only look onward. Where no assertion looks back, a match depends on
the text from its start on, and not on what comes before.
-/

namespace TokenGrammar.Regex

/-- The condition depends on the character before the place. -/
def Assertion.looksBack : Assertion → Bool
  | .textStart => true
  | .textEnd => false
  | .lineStart => true
  | .lineEnd => false
  | .wordBoundary => true
  | .insideWord => true

/-- Some assertion in the regular expression looks back. -/
def looksBack : Regex → Bool
  | .empty => false
  | .oneOf _ => false
  | .test assertion => assertion.looksBack
  | .capture _ _ body => body.looksBack
  | .append first second => first.looksBack || second.looksBack
  | .either first second => first.looksBack || second.looksBack
  | .repeated body .. => body.looksBack

/-- Two cursors do not differ but in what comes before their places. -/
structure Cursor.Alike (cursor other : Cursor) : Prop where
  after : other.place.after = cursor.place.after
  passed : other.passed = cursor.passed
  spans : other.spans = cursor.spans
  tried : other.tried = cursor.tried

/-- From cursors that are alike, what is left leads to alike ones. -/
def Continuation.Agrees (next next' : Continuation) : Prop :=
  ∀ ⦃cursor other⦄, cursor.Alike other → Option.Rel Cursor.Alike (next cursor) (next' other)

/-- From cursors that are alike, the step leads to alike ones, if what is left to match does. -/
def OnlyOnward (step : Step) : Prop :=
  ∀ ⦃next next' : Continuation⦄,
    next.Agrees next' → ∀ node, Continuation.Agrees (step node · next) (step node · next')

theorem Assertion.holds_eq_of_alike {assertion : Assertion} (h : assertion.looksBack = false)
    {cursor other : Cursor} (halike : cursor.Alike other)
    : assertion.holds other.place = assertion.holds cursor.place := by
  cases assertion with
  | textEnd | lineEnd => simp only [holds, halike.after]
  | textStart | lineStart | wordBoundary | insideWord => contradiction

section Steps

variable {step : Step} {cursor other : Cursor} {next next' : Continuation}

/-- At cursors that are alike, the same choices have come up, so the ways are gone from both or
from neither of them.
-/
theorem choose_rel {ways ways' : Continuation} (halike : cursor.Alike other)
    (hways : ways.Agrees ways') (node : Option Node)
    : Option.Rel Cursor.Alike (cursor.choose node ways) (other.choose node ways') := by
  cases node with
  | none => exact hways halike
  | some node =>
      unfold Cursor.choose
      simp only [halike.passed, halike.tried]
      split
      case isTrue => exact .none
      case isFalse => exact hways ⟨halike.after, rfl, halike.spans, rfl⟩

theorem orElse_rel {first first' : Option Cursor} {second second' : Unit → Option Cursor}
    (hfirst : Option.Rel Cursor.Alike first first')
    (hsecond : Option.Rel Cursor.Alike (second ()) (second' ()))
    : Option.Rel Cursor.Alike (first.orElse second) (first'.orElse second') := by
  cases hfirst with
  | none => exact hsecond
  | some halike => exact .some halike

/-- Whichever of two ways is preferred, it is so at both cursors. -/
theorem prefer_rel (greedy : Bool) {more more' fewer fewer' : Unit → Option Cursor}
    (hmore : Option.Rel Cursor.Alike (more ()) (more' ()))
    (hfewer : Option.Rel Cursor.Alike (fewer ()) (fewer' ()))
    : Option.Rel Cursor.Alike (prefer greedy more fewer) (prefer greedy more' fewer') := by
  cases greedy with
  | true => exact orElse_rel hmore hfewer
  | false => exact orElse_rel hfewer hmore

/-- The choice between more and no more is the same at both cursors. -/
theorem choose_prefer_rel {more more' : Continuation} (halike : cursor.Alike other)
    (hmore : more.Agrees more') (hfewer : next.Agrees next') (node : Option Node)
    (greedy : Bool)
    : Option.Rel Cursor.Alike
        (cursor.choose node fun cursor =>
          prefer greedy (fun _ => more cursor) (fun _ => next cursor))
        (other.choose node fun cursor =>
          prefer greedy (fun _ => more' cursor) (fun _ => next' cursor)) :=
  choose_rel halike
    (fun _ _ hreached => prefer_rel greedy (hmore hreached) (hfewer hreached)) node

/-- So many steps only look onward if one does, by induction on their number. -/
theorem OnlyOnward.exactly (h : OnlyOnward step) (rounds : Nat)
    : OnlyOnward (exactly step rounds) := by
  intro next next' hnext node
  induction rounds generalizing node with
  | zero => exact hnext
  | succ rounds ih => exact h (ih _) _

/-- Bounded rounds only look onward, by induction on the bound. -/
theorem OnlyOnward.atMost (h : OnlyOnward step) (greedy : Bool) (rounds : Nat)
    : OnlyOnward (atMost step greedy rounds) := by
  intro next next' hnext node
  induction rounds generalizing node with
  | zero => exact hnext
  | succ rounds ih =>
      exact fun _ _ halike => choose_prefer_rel halike (h (ih _) _) hnext node greedy

/-- Any number of rounds only looks onward, by induction on the characters left. -/
theorem OnlyOnward.anyNumber (h : OnlyOnward step) (greedy : Bool) (left : List Char)
    : OnlyOnward (anyNumber step greedy left) := by
  intro next next' hnext node
  induction left with
  | nil => exact fun _ _ halike => choose_rel halike hnext node
  | cons char left ih =>
      exact fun _ _ halike => choose_prefer_rel halike (h ih _) hnext node greedy

/-- One round and any number of others, as many as there are characters left at both cursors. -/
theorem OnlyOnward.oneAndMore (h : OnlyOnward step) (greedy : Bool)
    : OnlyOnward (oneAndMore step greedy) := by
  intro next next' hnext node
  refine h (fun reached reached' hreached => ?_) _
  rw [hreached.after]
  exact h.anyNumber greedy _ hnext node hreached

/-- Unbounded rounds only look onward, whether they may pass nothing or not. -/
theorem OnlyOnward.atLeast (h : OnlyOnward step) (isNullable greedy : Bool) (least : Nat)
    : OnlyOnward (atLeast step isNullable greedy least) := by
  intro next next' hnext node
  cases least with
  | succ least => exact h.exactly least (h.oneAndMore greedy hnext _) _
  | zero =>
      intro cursor other halike
      cases isNullable with
      | true =>
          exact choose_prefer_rel halike (h.oneAndMore greedy hnext _) hnext node greedy
      | false =>
          simp only [Regex.atLeast, halike.after]
          exact h.anyNumber greedy _ hnext node halike

end Steps

/-- Without an assertion that looks back, matching only looks onward, by induction on the regular
expression.
-/
theorem runAt_onlyOnward {regex : Regex} (h : regex.looksBack = false)
    : OnlyOnward regex.runAt := by
  induction regex with
  | empty => exact fun _ _ hnext _ => hnext
  | oneOf set =>
      intro next next' hnext node cursor other halike
      simp only [runAt, halike.after]
      cases cursor.place.after with
      | nil => exact .none
      | cons char rest =>
          dsimp only
          split
          case isTrue =>
            exact hnext ⟨rfl, congrArg (· + 1) halike.passed, halike.spans, halike.tried⟩
          case isFalse => exact .none
  | test assertion =>
      intro next next' hnext node cursor other halike
      simp only [runAt, assertion.holds_eq_of_alike h halike]
      split
      case isTrue => exact hnext halike
      case isFalse => exact .none
  | capture number name body ih =>
      intro next next' hnext node cursor other halike
      refine ih h (fun reached reached' hreached => ?_) node halike
      refine hnext ⟨hreached.after, hreached.passed, ?_, hreached.tried⟩
      simp only [Cursor.record, halike.passed, hreached.passed, hreached.spans]
  | append first second ihFirst ihSecond =>
      obtain ⟨hfirst, hsecond⟩ := Bool.or_eq_false_iff.mp h
      exact fun _ _ hnext _ => ihFirst hfirst (ihSecond hsecond hnext _) _
  | either first second ihFirst ihSecond =>
      obtain ⟨hfirst, hsecond⟩ := Bool.or_eq_false_iff.mp h
      intro next next' hnext node cursor other halike
      refine choose_rel halike (fun reached reached' hreached => ?_) node
      exact orElse_rel (ihFirst hfirst hnext _ hreached) (ihSecond hsecond hnext _ hreached)
  | repeated body least most greedy ih =>
      intro next next' hnext node cursor other halike
      cases most with
      | none =>
          unfold runAt
          split
          case h_1 =>
            exact (ih h).atLeast true greedy least hnext _
              ⟨halike.after, halike.passed, halike.spans, rfl⟩
          case h_2 => exact (ih h).atLeast _ greedy least hnext _ halike
      | some most =>
          exact (ih h).exactly least ((ih h).atMost greedy (most - least) hnext _) _ halike

/-- Two places with the same text after them have the same match, if nothing looks back. -/
theorem match?_eq_of_after_eq {regex : Regex} (h : regex.looksBack = false) {place other : Place}
    (hafter : other.after = place.after)
    : regex.match? other = regex.match? place := by
  have hrun
      : Option.Rel Cursor.Alike (regex.run (.start place) some) (regex.run (.start other) some) :=
    runAt_onlyOnward h (fun _ _ halike => .some halike) _ ⟨hafter, rfl, rfl, rfl⟩
  unfold match?
  generalize regex.run (.start place) some = result at hrun ⊢
  generalize regex.run (.start other) some = result' at hrun ⊢
  cases hrun with
  | none => rfl
  | some halike => simp only [Option.map_some, Cursor.found, halike.passed, halike.spans]

end TokenGrammar.Regex
