import TokenGrammar.Regex.Match

/-! The paths of regular expressions: the cursors to which they may lead, in no order of
preference. A match goes along one of the paths, whatever choices it keeps track of, and the paths
tell what texts may be matched.
-/

namespace TokenGrammar.Regex

-----------------------------------------------------------------------------------------
-- Cursors
-----------------------------------------------------------------------------------------

namespace Cursor

variable {cursor : Cursor} {text rest : List Char}

@[simp]
theorem start_place (place : Place) : (Cursor.start place).place = place :=
  rfl

@[simp]
theorem start_passed (place : Place) : (Cursor.start place).passed = 0 :=
  rfl

@[simp]
theorem start_spans (place : Place) : (Cursor.start place).spans = [] :=
  rfl

@[simp]
theorem past_after : (cursor.past text rest).place.after = rest :=
  rfl

@[simp]
theorem past_passed : (cursor.past text rest).passed = cursor.passed + text.length :=
  rfl

@[simp]
theorem past_spans : (cursor.past text rest).spans = cursor.spans :=
  rfl

/-- Whether choices are kept track of or not, one goes on from a cursor that differs in nothing but
what has been tried.
-/
theorem exists_of_choose {node : Option Node} {ways : Continuation} {result : Cursor}
    (h : cursor.choose node ways = some result)
    : ∃ other : Cursor, other.untracked = cursor.untracked ∧ ways other = some result := by
  unfold choose at h
  split at h
  case h_1 => exact ⟨cursor, rfl, h⟩
  case h_2 node =>
    split at h
    case isTrue => contradiction
    case isFalse =>
      exact ⟨{ cursor with tried := (node, cursor.passed) :: cursor.tried }, rfl, h⟩

end Cursor

-----------------------------------------------------------------------------------------
-- Paths
-----------------------------------------------------------------------------------------

/-- So many steps lead from one cursor to another. -/
def Times (step : Cursor → Cursor → Prop) : Nat → Cursor → Cursor → Prop
  | 0, cursor, reached => reached = cursor
  | rounds + 1, cursor, reached =>
      ∃ between, step cursor between ∧ Times step rounds between reached

/-- The regular expression leads from one cursor to another. A repetition may go any number of
rounds within its bounds. Paths do not keep track of choices.
-/
def Leads : Regex → Cursor → Cursor → Prop
  | .empty, cursor, reached => reached = cursor
  | .oneOf set, cursor, reached =>
      ∃ char rest,
        cursor.place.after = char :: rest
        ∧ set.contains char
        ∧ reached = cursor.past [char] rest
  | .test assertion, cursor, reached => assertion.holds cursor.place ∧ reached = cursor
  | .capture number _ body, cursor, reached =>
      ∃ inner, body.Leads cursor inner ∧ reached = inner.record number cursor.passed
  | .append first second, cursor, reached =>
      ∃ between, first.Leads cursor between ∧ second.Leads between reached
  | .either first second, cursor, reached =>
      first.Leads cursor reached ∨ second.Leads cursor reached
  | .repeated body least most _, cursor, reached =>
      ∃ rounds,
        least ≤ rounds
        ∧ (∀ bound ∈ most, rounds ≤ max least bound)
        ∧ Times body.Leads rounds cursor reached

-----------------------------------------------------------------------------------------
-- Steps along paths
-----------------------------------------------------------------------------------------

section Steps

variable {step : Step} {path : Cursor → Cursor → Prop} {cursor between reached result : Cursor}
  {next : Continuation} {node : Option Node} {greedy : Bool}

/-- Rounds after rounds are as many as both together, by induction on the first ones. -/
theorem Times.add {front back : Nat} (hfront : Times path front cursor between)
    (hback : Times path back between reached)
    : Times path (front + back) cursor reached := by
  induction front generalizing cursor with
  | zero =>
      obtain rfl : between = cursor := hfront
      rwa [Nat.zero_add]
  | succ front ih =>
      obtain ⟨first, hfirst, hothers⟩ := hfront
      rw [Nat.succ_add]
      exact ⟨first, hfirst, ih hothers⟩

theorem Times.cons {rounds : Nat} (hfirst : path cursor between)
    (hothers : Times path rounds between reached)
    : Times path (rounds + 1) cursor reached :=
  ⟨between, hfirst, hothers⟩

/-- Whatever the step matches, it does so along one of the paths, and goes on from there. -/
def Follows (step : Step) (path : Cursor → Cursor → Prop) : Prop :=
  ∀ ⦃node cursor next result⦄,
    step node cursor next = some result
    → ∃ reached, path cursor.untracked reached.untracked ∧ next reached = some result

/-- So many steps follow so many paths, by induction on their number. -/
theorem Follows.exactly (h : Follows step path) {rounds : Nat}
    (hrun : exactly step rounds node cursor next = some result)
    : ∃ reached,
        Times path rounds cursor.untracked reached.untracked ∧ next reached = some result := by
  induction rounds generalizing node cursor with
  | zero => exact ⟨cursor, rfl, hrun⟩
  | succ rounds ih =>
      obtain ⟨between, hbetween, hothers⟩ := h hrun
      obtain ⟨reached, hreached, hnext⟩ := ih hothers
      exact ⟨reached, hreached.cons hbetween, hnext⟩

/-- Where the second way is only tried if the first one fails, one of them was taken, by cases
on what the first one gave.
-/
theorem or_of_orElse {first : Option Cursor} {second : Unit → Option Cursor}
    (h : first.orElse second = some result)
    : first = some result ∨ second () = some result := by
  cases first with
  | none => exact Or.inr h
  | some found => exact Or.inl h

/-- One of the two ways was taken, whichever is tried first, by cases on the preference. -/
theorem or_of_prefer {more fewer : Unit → Option Cursor}
    (h : prefer greedy more fewer = some result)
    : more () = some result ∨ fewer () = some result := by
  unfold prefer at h
  split at h
  · exact or_of_orElse h
  · exact (or_of_orElse h).symm

/-- Where more and no more are tried at a node, one of them led on from a cursor that differs in
nothing but what has been tried.
-/
theorem exists_of_choose_prefer {more : Continuation}
    (h
      : (cursor.choose node fun cursor =>
            prefer greedy (fun _ => more cursor) (fun _ => next cursor))
        = some result)
    : ∃ other : Cursor,
        other.untracked = cursor.untracked
        ∧ (more other = some result ∨ next other = some result) := by
  obtain ⟨other, hother, hways⟩ := Cursor.exists_of_choose h
  exact ⟨other, hother, or_of_prefer hways⟩

/-- Bounded rounds follow no more paths than the bound, by induction on it. -/
theorem Follows.atMost (h : Follows step path) {bound : Nat}
    (hrun : atMost step greedy bound node cursor next = some result)
    : ∃ rounds ≤ bound,
        ∃ reached,
          Times path rounds cursor.untracked reached.untracked ∧ next reached = some result := by
  induction bound generalizing node cursor with
  | zero => exact ⟨0, Nat.le_refl _, cursor, rfl, hrun⟩
  | succ bound ih =>
      obtain ⟨other, hother, hmore | hfewer⟩ := exists_of_choose_prefer hrun
      · obtain ⟨between, hbetween, hothers⟩ := h hmore
        obtain ⟨rounds, hrounds, reached, hreached, hnext⟩ := ih hothers
        rw [hother] at hbetween
        exact ⟨rounds + 1, Nat.succ_le_succ hrounds, reached, hreached.cons hbetween, hnext⟩
      · exact ⟨0, Nat.zero_le _, other, hother, hfewer⟩

/-- Any number of rounds follows some number of paths, by induction on the characters left. -/
theorem Follows.anyNumber (h : Follows step path) {left : List Char}
    (hrun : anyNumber step greedy left node cursor next = some result)
    : ∃ rounds reached,
        Times path rounds cursor.untracked reached.untracked ∧ next reached = some result := by
  induction left generalizing node cursor with
  | nil =>
      obtain ⟨other, hother, hnext⟩ := Cursor.exists_of_choose hrun
      exact ⟨0, other, hother, hnext⟩
  | cons char left ih =>
      obtain ⟨other, hother, hmore | hfewer⟩ := exists_of_choose_prefer hrun
      · obtain ⟨between, hbetween, hothers⟩ := h hmore
        obtain ⟨rounds, reached, hreached, hnext⟩ := ih hothers
        rw [hother] at hbetween
        exact ⟨rounds + 1, reached, hreached.cons hbetween, hnext⟩
      · exact ⟨0, other, hother, hfewer⟩

/-- One round and any number of others follow at least one path: that of the first round, and
those of the others in turn.
-/
theorem Follows.oneAndMore (h : Follows step path)
    (hrun : oneAndMore step greedy node cursor next = some result)
    : ∃ rounds reached,
        Times path (rounds + 1) cursor.untracked reached.untracked
        ∧ next reached = some result := by
  obtain ⟨between, hbetween, hothers⟩ := h hrun
  obtain ⟨rounds, reached, hreached, hnext⟩ := h.anyNumber hothers
  exact ⟨rounds, reached, hreached.cons hbetween, hnext⟩

/-- Unbounded rounds follow at least so many paths, whether rounds may pass nothing or not, by
cases on how the repetition is compiled.
-/
theorem Follows.atLeast (h : Follows step path) {isNullable : Bool} {least : Nat}
    (hrun : atLeast step isNullable greedy least node cursor next = some result)
    : ∃ rounds ≥ least,
        ∃ reached,
          Times path rounds cursor.untracked reached.untracked ∧ next reached = some result := by
  cases least with
  | zero =>
      cases isNullable with
      | true =>
          rw [Regex.atLeast, if_pos rfl] at hrun
          obtain ⟨other, hother, hmore | hfewer⟩ := exists_of_choose_prefer hrun
          · obtain ⟨rounds, reached, hreached, hnext⟩ := h.oneAndMore hmore
            rw [hother] at hreached
            exact ⟨rounds + 1, Nat.zero_le _, reached, hreached, hnext⟩
          · exact ⟨0, Nat.zero_le _, other, hother, hfewer⟩
      | false =>
          obtain ⟨rounds, reached, hreached, hnext⟩ := h.anyNumber hrun
          exact ⟨rounds, Nat.zero_le _, reached, hreached, hnext⟩
  | succ least =>
      obtain ⟨between, hbetween, hothers⟩ := h.exactly hrun
      obtain ⟨rounds, reached, hreached, hnext⟩ := h.oneAndMore hothers
      exact ⟨least + (rounds + 1), by omega, reached, hbetween.add hreached, hnext⟩

end Steps

/-- Matches go along the paths, by induction on the regular expression. The repetitions are the
lemmas above, with the path of the body as the path of a round.
-/
theorem runAt_follows (regex : Regex) : Follows regex.runAt regex.Leads := by
  induction regex with
  | empty =>
      intro node cursor next result hrun
      exact ⟨cursor, rfl, hrun⟩
  | oneOf set =>
      intro node cursor next result hrun
      unfold runAt at hrun
      split at hrun
      case h_1 => contradiction
      case h_2 char rest hafter =>
        split at hrun
        case isTrue hchar =>
          exact ⟨cursor.past [char] rest, ⟨char, rest, hafter, hchar, rfl⟩, hrun⟩
        case isFalse => contradiction
  | test assertion =>
      intro node cursor next result hrun
      unfold runAt at hrun
      split at hrun
      case isTrue hholds => exact ⟨cursor, ⟨hholds, rfl⟩, hrun⟩
      case isFalse => contradiction
  | capture number name body ih =>
      intro node cursor next result hrun
      obtain ⟨inner, hinner, hnext⟩ := ih hrun
      exact ⟨inner.record number cursor.passed, ⟨inner.untracked, hinner, rfl⟩, hnext⟩
  | append first second ihFirst ihSecond =>
      intro node cursor next result hrun
      obtain ⟨between, hbetween, hothers⟩ := ihFirst hrun
      obtain ⟨reached, hreached, hnext⟩ := ihSecond hothers
      exact ⟨reached, ⟨between.untracked, hbetween, hreached⟩, hnext⟩
  | either first second ihFirst ihSecond =>
      intro node cursor next result hrun
      obtain ⟨other, hother, hways⟩ := Cursor.exists_of_choose hrun
      rcases or_of_orElse hways with hfirst | hsecond
      · obtain ⟨reached, hreached, hnext⟩ := ihFirst hfirst
        exact ⟨reached, Or.inl (hother ▸ hreached), hnext⟩
      · obtain ⟨reached, hreached, hnext⟩ := ihSecond hsecond
        exact ⟨reached, Or.inr (hother ▸ hreached), hnext⟩
  | repeated body least most greedy ih =>
      intro node cursor next result hrun
      cases most with
      | none =>
          have hrounds
              : ∃ rounds ≥ least,
                  ∃ reached,
                    Times body.Leads rounds cursor.untracked reached.untracked
                    ∧ next reached = some result := by
            unfold runAt at hrun
            split at hrun
            case h_1 =>
              -- the rounds start with nothing tried, and paths do not tell that cursor apart
              have hrounds := ih.atLeast hrun
              exact hrounds
            case h_2 => exact ih.atLeast hrun
          obtain ⟨rounds, hrounds, reached, hreached, hnext⟩ := hrounds
          exact ⟨reached, ⟨rounds, hrounds, nofun, hreached⟩, hnext⟩
      | some bound =>
          obtain ⟨between, hbetween, hothers⟩ := ih.exactly hrun
          obtain ⟨rounds, hrounds, reached, hreached, hnext⟩ := ih.atMost hothers
          refine ⟨reached, ⟨least + rounds, Nat.le_add_right .., ?_, hbetween.add hreached⟩,
            hnext⟩
          intro most hmost
          obtain rfl := Option.mem_some.mp hmost
          omega

/-- A match leads from the place where it starts to where it ends, since what is left to match
behind the whole expression stops at once.
-/
theorem leads_of_match? {regex : Regex} {place : Place} {found : Match}
    (h : regex.match? place = some found)
    : ∃ reached : Cursor, regex.Leads (.start place) reached ∧ reached.found = found := by
  obtain ⟨cursor, hcursor, rfl⟩ := Option.map_eq_some_iff.mp h
  obtain ⟨reached, hleads, hreached⟩ := regex.runAt_follows hcursor
  obtain rfl := Option.some.inj hreached
  exact ⟨reached.untracked, hleads, rfl⟩

end TokenGrammar.Regex
